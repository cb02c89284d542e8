import Mathlib.Data.List.Basic
import Mathlib.Data.List.Induction
import Mathlib.Data.Rat.Defs

/-!
# The Python values the agent handles

The agent is a Python 2 program, and what it sends, receives and reports are Python objects: the
arguments of a message, the fields of a host command, the answers of a data retriever.  This file
is the part of the language those values need.

Two things about Python 2 show through.  There are two kinds of string, byte strings and Unicode
strings, which compare equal when both are the same ASCII text; and a comparison between objects
of different types does not raise but falls back on an order of the types, which `PyObj.gtZero`
needs because one command compares a host-supplied value with `0`.

A Unicode string is the list of its units, `ord` of each: code points on Linux, UTF-16 code units
in the Windows builds.  A dict is the list of its entries in iteration order.
-/

set_option autoImplicit false

namespace GuestAgent

/-- A byte string. -/
abbrev Bytes := List UInt8

/-- The units of a Unicode string. -/
abbrev Text := List Nat

/-- The literal `u's'`. -/
def u (s : String) : Text := s.toList.map Char.toNat

/-- The literal `'s'`, for ASCII `s`. -/
def ascii (s : String) : Bytes := s.toList.map fun c ↦ UInt8.ofNat c.toNat

/-- The exceptions the code names or that the operations it uses are documented to raise. -/
inductive PyExn where
  | typeError
  | valueError
  | unicodeError
  | overflowError
  | keyError
  | attributeError
  | osError
  | structError
  | socketTimeout
  | socketError
  /-- `hooks.UnknownHookError`, with the name of the hook. -/
  | unknownHookError (hook : Text)
  /-- Any other exception. -/
  | other (n : Nat)
  deriving DecidableEq, Repr

/-- Is the exception caught by `except ValueError`?  `UnicodeError` is a subclass of it. -/
def PyExn.isValueError : PyExn → Bool
  | valueError | unicodeError => true
  | _ => false

/-- A string object: `str` or `unicode`. -/
inductive PyStr where
  | str (b : Bytes)
  | unicode (t : Text)
  deriving DecidableEq, Repr

/-- A dict key or name written as a literal in the source. -/
def key (s : String) : PyStr := .str (ascii s)

/-- `==` on strings: a byte string equals a Unicode string when it is ASCII and has its units. -/
def PyStr.eq : PyStr → PyStr → Bool
  | str a, str b => a == b
  | unicode a, unicode b => a == b
  | str a, unicode b | unicode b, str a => a.all (· < 128) && a.map UInt8.toNat == b

/-- What decides whether two strings are equal: the units, or the bytes where they are not ASCII. -/
def PyStr.canonical : PyStr → Text ⊕ Bytes
  | str b => if b.all (· < 128) then .inl (b.map UInt8.toNat) else .inr b
  | unicode t => .inl t

theorem PyStr.canonical_str_eq_inl_iff {b : Bytes} {t : Text} :
    (PyStr.str b).canonical = .inl t ↔ b.all (· < 128) ∧ b.map UInt8.toNat = t := by
  rw [canonical]
  split
  · rename_i hb
    rw [Sum.inl.injEq, and_iff_right hb]
  · rename_i hb
    exact iff_of_false nofun fun h ↦ hb h.1

theorem PyStr.canonical_str_inj {a b : Bytes}
    (h : (PyStr.str a).canonical = (PyStr.str b).canonical) : a = b := by
  rcases hb : (PyStr.str b).canonical with t | c
  · have hinj : Function.Injective (List.map UInt8.toNat) :=
      Function.Injective.list_map fun _ _ h ↦ UInt8.toNat_inj.mp h
    have ha := (canonical_str_eq_inl_iff.mp (h.trans hb)).2
    exact hinj (ha.trans (canonical_str_eq_inl_iff.mp hb).2.symm)
  · rw [hb] at h
    simp only [canonical] at h hb
    split at h
    · cases h
    · split at hb
      · cases hb
      · exact (Sum.inr.inj h).trans (Sum.inr.inj hb).symm

theorem PyStr.eq_iff {s t : PyStr} : s.eq t ↔ s.canonical = t.canonical := by
  rcases s with a | a <;> rcases t with b | b
  · rw [eq, beq_iff_eq]
    exact ⟨fun h ↦ by rw [h], canonical_str_inj⟩
  · rw [eq, Bool.and_eq_true, beq_iff_eq]
    exact canonical_str_eq_inl_iff.symm
  · rw [eq, Bool.and_eq_true, beq_iff_eq, eq_comm (b := (str b).canonical)]
    exact canonical_str_eq_inl_iff.symm
  · rw [eq, beq_iff_eq]
    exact ⟨fun h ↦ by rw [h], Sum.inl.inj⟩

@[simp] theorem PyStr.eq_self (s : PyStr) : s.eq s = true := PyStr.eq_iff.mpr rfl

theorem PyStr.eq_symm {s t : PyStr} (h : s.eq t) : t.eq s :=
  PyStr.eq_iff.mpr (PyStr.eq_iff.mp h).symm

theorem PyStr.eq_trans {s t r : PyStr} (h : s.eq t) (h' : t.eq r) : s.eq r :=
  PyStr.eq_iff.mpr ((PyStr.eq_iff.mp h).trans (PyStr.eq_iff.mp h'))

/-- Equal to two byte strings, equal to both. -/
theorem PyStr.eq_str_unique {s : PyStr} {a b : Bytes} (ha : s.eq (.str a)) (hb : s.eq (.str b)) :
    a = b := by
  simpa [PyStr.eq] using PyStr.eq_trans (PyStr.eq_symm ha) hb

/-- A float: a finite one stands for its exact value. -/
inductive PyFloat where
  | finite (q : ℚ)
  | infinite (negative : Bool)
  | nan
  deriving DecidableEq

/-- A Python object. -/
inductive PyObj where
  | none
  | bool (b : Bool)
  | int (n : Int)
  | float (x : PyFloat)
  | str (s : PyStr)
  | list (xs : List PyObj)
  | tuple (xs : List PyObj)
  | dict (kvs : List (PyStr × PyObj))

/-- A dict with string keys, as its entries. -/
abbrev Dict := List (PyStr × PyObj)

namespace Dict

/-- `d[k]`, or nothing when the key is missing. -/
def get? (k : PyStr) : Dict → Option PyObj
  | [] => .none
  | (k', v) :: d => if k'.eq k then some v else get? k d

/-- `k in d`. -/
def contains (k : PyStr) (d : Dict) : Bool := (d.get? k).isSome

/-- `d[k]` where a missing key raises. -/
def getItem (k : PyStr) (d : Dict) : Except PyExn PyObj :=
  match d.get? k with
  | some v => .ok v
  | .none => .error .keyError

/-- `d` without the key `k`, as `del d[k]` and `d.pop(k, ...)` leave it. -/
def del (k : PyStr) (d : Dict) : Dict := d.filter fun p ↦ !p.1.eq k

/-- `d[k] = v`: the value of an entry is replaced, a new key comes last. -/
def set (k : PyStr) (v : PyObj) : Dict → Dict
  | [] => [(k, v)]
  | (k', w) :: d => if k'.eq k then (k', v) :: d else (k', w) :: set k v d

/-- `dict(items)`. -/
def ofItems (items : List (PyStr × PyObj)) : Dict :=
  items.foldl (fun d item ↦ d.set item.1 item.2) []

/-- No key of the dict is equal to `k`. -/
def Absent (k : PyStr) (d : Dict) : Prop := ∀ item ∈ d, item.1.eq k = false

theorem set_of_absent {k : PyStr} {d : Dict} (h : d.Absent k) (v : PyObj) :
    d.set k v = d ++ [(k, v)] := by
  induction d with
  | nil => rfl
  | cons item d ih =>
    obtain ⟨k', w⟩ := item
    have hk' : k'.eq k = false := h _ List.mem_cons_self
    rw [set, if_neg (by simp [hk']), ih fun p hp ↦ h p (List.mem_cons_of_mem _ hp)]
    rfl

theorem absent_set {k k' : PyStr} {d : Dict} (h : d.Absent k) (hk' : k'.eq k = false)
    (v : PyObj) : (d.set k' v).Absent k := by
  induction d with
  | nil => simpa [set, Absent] using hk'
  | cons item d ih =>
    obtain ⟨k'', w⟩ := item
    rw [Absent, List.forall_mem_cons] at h
    rw [set]
    split
    · exact List.forall_mem_cons.mpr ⟨h.1, h.2⟩
    · exact List.forall_mem_cons.mpr ⟨h.1, ih h.2⟩

theorem absent_ofItems {k : PyStr} {items : List (PyStr × PyObj)}
    (h : ∀ item ∈ items, item.1.eq k = false) : (ofItems items).Absent k := by
  have hfold : ∀ d : Dict, d.Absent k →
      (items.foldl (fun d item ↦ d.set item.1 item.2) d).Absent k := by
    induction items with
    | nil => exact fun d hd ↦ hd
    | cons item items ih =>
      intro d hd
      rw [List.forall_mem_cons] at h
      exact ih h.2 _ (absent_set hd h.1 item.2)
  exact hfold [] (by simp [Absent])

theorem ofItems_concat (items : List (PyStr × PyObj)) (item : PyStr × PyObj) :
    ofItems (items ++ [item]) = (ofItems items).set item.1 item.2 := by
  rw [ofItems, List.foldl_append]
  rfl

theorem get?_set_self (k : PyStr) (v : PyObj) (d : Dict) : (d.set k v).get? k = some v := by
  induction d with
  | nil => simp [set, get?]
  | cons item d ih =>
    obtain ⟨k', w⟩ := item
    rw [set]
    split
    · rename_i hk
      rw [get?, if_pos hk]
    · rename_i hk
      rw [get?, if_neg hk, ih]

/-- Setting a key leaves the entries of the others. -/
theorem get?_set_of_ne {k l : PyStr} (h : k.eq l = false) (v : PyObj) (d : Dict) :
    (d.set k v).get? l = d.get? l := by
  have hne {k' : PyStr} (hk : k'.eq k = true) : ¬ k'.eq l = true := by
    intro hl
    rw [PyStr.eq_trans (PyStr.eq_symm hk) hl] at h
    cases h
  induction d with
  | nil => simp [set, get?, h]
  | cons item d ih =>
    obtain ⟨k', w⟩ := item
    rw [set]
    split
    · rename_i hk
      rw [get?, get?, if_neg (hne hk), if_neg (hne hk)]
    · rw [get?, get?, ih]

/-- No two keys are equal, as in every dict. -/
def KeysApart (items : List (PyStr × PyObj)) : Prop :=
  (items.map Prod.fst).Pairwise fun k k' ↦ k.eq k' = false

theorem keysApart_concat_iff {items : List (PyStr × PyObj)} {item : PyStr × PyObj} :
    KeysApart (items ++ [item]) ↔ KeysApart items ∧ Absent item.1 items := by
  simp [KeysApart, Absent, List.pairwise_append]

/-- Setting a key keeps the keys there are. -/
theorem keys_set (k : PyStr) (v : PyObj) (d : Dict) :
    (d.set k v).map Prod.fst = d.map Prod.fst ∨ d.Absent k := by
  induction d with
  | nil => exact .inr (by simp [Absent])
  | cons item d ih =>
    obtain ⟨k', w⟩ := item
    rw [set]
    split
    · exact .inl rfl
    · rename_i hk
      rcases ih with ih | habsent
      · exact .inl (congrArg (k' :: ·) ih)
      · exact .inr (List.forall_mem_cons.mpr ⟨Bool.eq_false_iff.mpr hk, habsent⟩)

theorem keysApart_set {d : Dict} (h : KeysApart d) (k : PyStr) (v : PyObj) :
    KeysApart (d.set k v) := by
  rcases keys_set k v d with hkeys | habsent
  · rwa [KeysApart, hkeys]
  · rw [set_of_absent habsent]
    exact keysApart_concat_iff.mpr ⟨h, habsent⟩

theorem forall_mem_set {P : PyStr → Prop} {Q : PyObj → Prop} {k : PyStr} {v : PyObj} {d : Dict}
    (hd : ∀ item ∈ d, P item.1 ∧ Q item.2) (hk : P k) (hv : Q v) :
    ∀ item ∈ d.set k v, P item.1 ∧ Q item.2 := by
  induction d with
  | nil => exact List.forall_mem_singleton.mpr ⟨hk, hv⟩
  | cons item d ih =>
    obtain ⟨k', w⟩ := item
    obtain ⟨hitem, hd⟩ := List.forall_mem_cons.mp hd
    rw [set]
    split
    · exact List.forall_mem_cons.mpr ⟨⟨hitem.1, hv⟩, hd⟩
    · exact List.forall_mem_cons.mpr ⟨hitem, ih hd⟩

section OfItems

variable {items : List (PyStr × PyObj)}

theorem ofItems_of_keysApart (h : KeysApart items) : ofItems items = items := by
  induction items using List.reverseRecOn with
  | nil => rfl
  | append_singleton items item ih =>
    obtain ⟨hitems, habsent⟩ := keysApart_concat_iff.mp h
    rw [ofItems_concat, ih hitems, set_of_absent habsent]

theorem keysApart_ofItems (items : List (PyStr × PyObj)) : KeysApart (ofItems items) := by
  induction items using List.reverseRecOn with
  | nil => exact List.Pairwise.nil
  | append_singleton items item ih =>
    rw [ofItems_concat]
    exact keysApart_set ih item.1 item.2

/-- The entries of a dict have the keys and the values of the items it is made of. -/
theorem forall_mem_ofItems {P : PyStr → Prop} {Q : PyObj → Prop}
    (h : ∀ item ∈ items, P item.1 ∧ Q item.2) : ∀ item ∈ ofItems items, P item.1 ∧ Q item.2 := by
  induction items using List.reverseRecOn with
  | nil => exact fun item hitem ↦ absurd hitem List.not_mem_nil
  | append_singleton items item ih =>
    rw [List.forall_mem_append, List.forall_mem_singleton] at h
    rw [ofItems_concat]
    exact forall_mem_set (ih h.1) h.2.1 h.2.2

theorem length_ofItems_le (items : List (PyStr × PyObj)) :
    (ofItems items).length ≤ items.length := by
  induction items using List.reverseRecOn with
  | nil => exact Nat.le_refl 0
  | append_singleton items item ih =>
    rw [ofItems_concat, List.length_append, List.length_singleton]
    rcases keys_set item.1 item.2 (ofItems items) with hkeys | habsent
    · have hlen := congrArg List.length hkeys
      rw [List.length_map, List.length_map] at hlen
      omega
    · rw [set_of_absent habsent, List.length_append, List.length_singleton]
      omega

/-- Entries get lost exactly when two of the items have the same key. -/
theorem length_ofItems_eq_iff : (ofItems items).length = items.length ↔ KeysApart items := by
  refine ⟨fun h ↦ ?_, fun h ↦ by rw [ofItems_of_keysApart h]⟩
  induction items using List.reverseRecOn with
  | nil => exact List.Pairwise.nil
  | append_singleton items item ih =>
    have hle := length_ofItems_le items
    rw [ofItems_concat, List.length_append, List.length_singleton] at h
    rcases keys_set item.1 item.2 (ofItems items) with hkeys | habsent
    · have hlen := congrArg List.length hkeys
      rw [List.length_map, List.length_map] at hlen
      omega
    · rw [set_of_absent habsent, List.length_append, List.length_singleton] at h
      have hitems : KeysApart items := ih (by omega)
      rw [ofItems_of_keysApart hitems] at habsent
      exact keysApart_concat_iff.mpr ⟨hitems, habsent⟩

end OfItems

/-- Of keys that are apart each gives its own value. -/
theorem get?_of_keysApart {d : Dict} {item : PyStr × PyObj} (h : KeysApart d) (hmem : item ∈ d) :
    d.get? item.1 = some item.2 := by
  induction d with
  | nil => cases hmem
  | cons item' d ih =>
    obtain ⟨hk, hd⟩ := List.pairwise_cons.mp h
    rcases List.mem_cons.mp hmem with rfl | hmem
    · rw [get?, if_pos (PyStr.eq_self _)]
    · rw [get?, if_neg (Bool.eq_false_iff.mp (hk _ (List.mem_map_of_mem hmem))), ih hd hmem]

/-- Deleting a key does not change what another key gives. -/
theorem get?_del {a b : Bytes} (hab : a ≠ b) (d : Dict) :
    get? (.str a) (d.del (.str b)) = d.get? (.str a) := by
  induction d with
  | nil => rfl
  | cons kv d ih =>
    obtain ⟨k, v⟩ := kv
    simp only [del] at ih
    simp only [del, List.filter_cons]
    cases hb : k.eq (.str b) with
    | true =>
      have ha : k.eq (.str a) = false := by
        by_contra h
        exact hab (PyStr.eq_str_unique (by simpa using h) hb)
      simpa [get?, ha] using ih
    | false => simp [get?, ih]

end Dict

namespace PyObj

/-- The Unicode string `u's'` as an object. -/
def ofString (s : String) : PyObj := str (.unicode (u s))

/-- Is the object true in a condition? -/
def truthy : PyObj → Bool
  | none => false
  | bool b => b
  | int n => n != 0
  | float (.finite q) => q != 0
  | float _ => true
  | str (.str b) => !b.isEmpty
  | str (.unicode t) => !t.isEmpty
  | list xs | tuple xs => !xs.isEmpty
  | dict kvs => !kvs.isEmpty

/-- `x > 0`.  Numbers compare by value; `None` is below everything, and an object that is neither
is above every number. -/
def gtZero : PyObj → Bool
  | none => false
  | bool b => b
  | int n => 0 < n
  | float (.finite q) => 0 < q
  | float (.infinite negative) => !negative
  | float .nan => false
  | str _ | list _ | tuple _ | dict _ => true

end PyObj

/-! ## `int()` -/

/-- The zeros of the decimal digits that `int` accepts in a Unicode string. -/
def decimalZeros : List Nat :=
  [0x30, 0x660, 0x6F0, 0x7C0, 0x966, 0x9E6, 0xA66, 0xAE6, 0xB66, 0xBE6, 0xC66, 0xCE6, 0xD66, 0xE50,
    0xED0, 0xF20, 0x1040, 0x1090, 0x17E0, 0x1810, 0x1946, 0x19D0, 0x1A80, 0x1A90, 0x1B50, 0x1BB0,
    0x1C40, 0x1C50, 0xA620, 0xA8D0, 0xA900, 0xA9D0, 0xAA50, 0xABF0, 0xFF10, 0x104A0, 0x1D7CE,
    0x1D7D8, 0x1D7E2, 0x1D7EC, 0x1D7F6]

/-- The value of a decimal digit. -/
def decimalValue (c : Nat) : Option Nat :=
  (decimalZeros.find? fun z ↦ z ≤ c && c < z + 10).map (c - ·)

/-- White space in a byte string. -/
def isSpaceByte (b : UInt8) : Bool := (0x09 ≤ b && b ≤ 0x0D) || b == 0x20

/-- Is the unit white space? -/
def isSpace (c : Nat) : Bool :=
  (0x9 ≤ c && c ≤ 0xD) || (0x1C ≤ c && c ≤ 0x20) || c == 0x85 || c == 0xA0 || c == 0x1680 ||
    c == 0x180E || (0x2000 ≤ c && c ≤ 0x200A) || c == 0x2028 || c == 0x2029 || c == 0x202F ||
    c == 0x205F || c == 0x3000

/-- The number a decimal literal names: white space around it is ignored, and it may have a
sign. -/
def decimalLiteral (space : Nat → Bool) (t : Text) : Option Int :=
  let t := t.dropWhile space
  let (negative, t) := match t with
    | 0x2B :: t => (false, t)
    | 0x2D :: t => (true, t)
    | t => (false, t)
  let digits := (t.takeWhile fun c ↦ (decimalValue c).isSome).filterMap decimalValue
  let rest := t.dropWhile fun c ↦ (decimalValue c).isSome
  if digits ≠ [] ∧ rest.all space then
    let n : Nat := digits.foldl (fun n d ↦ 10 * n + d) 0
    some (if negative then -n else n)
  else none

/-- `int(x)`.  A float is truncated toward zero. -/
def PyObj.toInt : PyObj → Except PyExn Int
  | bool b => .ok (if b then 1 else 0)
  | int n => .ok n
  | float (.finite q) => .ok (q.num.tdiv q.den)
  | float (.infinite _) => .error .overflowError
  | float .nan => .error .valueError
  | str (.unicode t) =>
    match decimalLiteral isSpace t with
    | some n => .ok n
    | Option.none => .error .valueError
  | str (.str b) =>
    -- bytes from 128 on are neither digits nor white space
    match decimalLiteral (isSpaceByte ·.toUInt8) (b.map UInt8.toNat) with
    | some n => .ok n
    | Option.none => .error .valueError
  | none | list _ | tuple _ | dict _ => .error .typeError

example : (PyObj.ofString " -12 ").toInt = .ok (-12) := by rfl

end GuestAgent
