import GuestAgent.Channel.XmlChars
import Mathlib.Data.List.Forall2

/-!
# Filtering a whole object

A message is an object of dicts, lists, tuples, strings and other scalars, nested in each other, and
the filter keeps all of it but the characters of the strings.  With one exception: the keys of a
dict are filtered as well, and as filtering is not injective two keys may become one, of which one
value is left.  `filtered_iff` says that this is all that can go wrong.

Everything is proved along `PyObj.induction`, and `PyObj.EachDict` and `PyObj.EachString` are what
holds of every dict and of every string in an object.
-/

set_option autoImplicit false

namespace GuestAgent

theorem sizeOf_snd_lt {item : PyStr × PyObj} {kvs : List (PyStr × PyObj)} (h : item ∈ kvs) :
    sizeOf item.2 < sizeOf (PyObj.dict kvs) := by
  have hitem : sizeOf item < sizeOf kvs := List.sizeOf_lt_of_mem h
  have hsnd : sizeOf item = 1 + sizeOf item.1 + sizeOf item.2 := rfl
  rw [PyObj.dict.sizeOf_spec]
  omega

/-- **Induction on an object.** -/
@[elab_as_elim]
theorem PyObj.induction {motive : PyObj → Prop} (none : motive .none) (bool : ∀ b, motive (.bool b))
    (int : ∀ n, motive (.int n)) (float : ∀ x, motive (.float x)) (str : ∀ s, motive (.str s))
    (list : ∀ xs, (∀ x ∈ xs, motive x) → motive (.list xs))
    (tuple : ∀ xs, (∀ x ∈ xs, motive x) → motive (.tuple xs))
    (dict : ∀ kvs, (∀ item ∈ kvs, motive item.2) → motive (.dict kvs)) : ∀ o, motive o
  | .none => none
  | .bool b => bool b
  | .int n => int n
  | .float x => float x
  | .str s => str s
  | .list xs => list xs fun x _ ↦ PyObj.induction none bool int float str list tuple dict x
  | .tuple xs => tuple xs fun x _ ↦ PyObj.induction none bool int float str list tuple dict x
  | .dict kvs => dict kvs fun item _ ↦
    PyObj.induction none bool int float str list tuple dict item.2
decreasing_by
  · decreasing_tactic
  · decreasing_tactic
  · exact sizeOf_snd_lt ‹_›

/-- Every dict in the object satisfies `P`. -/
def PyObj.EachDict (P : Dict → Prop) : PyObj → Prop
  | .dict kvs => P kvs ∧ ∀ item ∈ kvs, EachDict P item.2
  | .list xs => ∀ x ∈ xs, EachDict P x
  | .tuple xs => ∀ x ∈ xs, EachDict P x
  | _ => True
decreasing_by
  · exact sizeOf_snd_lt ‹_›
  · decreasing_tactic
  · decreasing_tactic

/-- Every string in the object satisfies `P`, keys included. -/
def PyObj.EachString (P : PyStr → Prop) : PyObj → Prop
  | .str s => P s
  | .dict kvs => ∀ item ∈ kvs, P item.1 ∧ EachString P item.2
  | .list xs => ∀ x ∈ xs, EachString P x
  | .tuple xs => ∀ x ∈ xs, EachString P x
  | _ => True
decreasing_by
  · exact sizeOf_snd_lt ‹_›
  · decreasing_tactic
  · decreasing_tactic

variable (locale : Locale)

/-- A string without a character that is not allowed. -/
def PyStr.Clean (s : PyStr) : Prop := ∀ c ∈ stringConvert locale s, XmlAllows c

/-- The second object has the shape of the first one, with each string filtered.  A dict has as many
entries, and under the filtered form of each key what has become of its value. -/
inductive SameShape : PyObj → PyObj → Prop
  | none : SameShape .none .none
  | bool (b : Bool) : SameShape (.bool b) (.bool b)
  | int (n : Int) : SameShape (.int n) (.int n)
  | float (x : PyFloat) : SameShape (.float x) (.float x)
  | str (s : PyStr) : SameShape (.str s) (.str (filterString locale s))
  | list {xs ys : List PyObj} (h : List.Forall₂ SameShape xs ys) : SameShape (.list xs) (.list ys)
  | tuple {xs ys : List PyObj} (h : List.Forall₂ SameShape xs ys) :
    SameShape (.tuple xs) (.tuple ys)
  | dict {kvs kvs' : Dict} (hlength : kvs'.length = kvs.length)
    (hkeys : ∀ item ∈ kvs, Dict.contains (filterString locale item.1) kvs')
    (h : ∀ item ∈ kvs, ∀ v, Dict.get? (filterString locale item.1) kvs' = some v →
      SameShape item.2 v) : SameShape (.dict kvs) (.dict kvs')

/-- What filtering an object is to make of it. -/
structure IsFiltered (o o' : PyObj) : Prop where
  sameShape : SameShape locale o o'
  clean : o'.EachString (PyStr.Clean locale)
  again : filterObject locale o' = o'

/-! ## Strings -/

theorem xmlAllows_cleanChar (c : Nat) : XmlAllows (cleanChar c) := by
  rw [cleanChar]
  split
  · assumption
  · decide

variable {locale}

theorem stringConvert_nil : stringConvert locale (.str []) = [] := by
  rw [stringConvert, locale.strict_name [] rfl]
  rfl

/-- The characters of a string that has been filtered. -/
theorem stringConvert_filterString (s : PyStr) :
    stringConvert locale (filterString locale s) = (stringConvert locale s).map cleanChar := by
  rw [filterString]
  rcases stringConvert locale s with _ | ⟨c, t⟩
  · exact stringConvert_nil
  · rw [filterXmlChars, stringConvert]
    · exact List.map_congr_left fun c _ ↦ filterXmlChar_eq c
    · exact List.cons_ne_nil c t

theorem clean_filterString (s : PyStr) : (filterString locale s).Clean locale := by
  intro c hc
  rw [stringConvert_filterString] at hc
  obtain ⟨c, -, rfl⟩ := List.mem_map.mp hc
  exact xmlAllows_cleanChar c

theorem filterString_filterString (s : PyStr) :
    filterString locale (filterString locale s) = filterString locale s := by
  have htwice (t : Text) : (t.map cleanChar).map filterXmlChar = t.map filterXmlChar := by
    rw [List.map_map]
    refine List.map_congr_left fun c _ ↦ ?_
    rw [Function.comp_apply, filterXmlChar_eq, filterXmlChar_eq, cleanChar,
      if_pos (xmlAllows_cleanChar c)]
  rw [filterString, stringConvert_filterString, filterString]
  rcases stringConvert locale s with _ | ⟨c, t⟩
  · rfl
  · rw [filterXmlChars, filterXmlChars, htwice]
    · exact List.cons_ne_nil c t
    · exact List.cons_ne_nil _ _

/-! ## Objects -/

theorem filterObjects_eq_map (xs : List PyObj) :
    filterObjects locale xs = xs.map (filterObject locale) := by
  induction xs with
  | nil => rfl
  | cons x xs ih => rw [filterObjects, ih, List.map_cons]

theorem filterItem_eq (item : PyStr × PyObj) :
    filterItem locale item = (filterString locale item.1, filterObject locale item.2) := by
  obtain ⟨k, v⟩ := item
  rw [filterItem]

/-- No two keys of a dict are filtered to the same one. -/
def KeysStayApart (locale : Locale) (d : Dict) : Prop :=
  (d.map Prod.fst).Pairwise fun k k' ↦ (filterString locale k).eq (filterString locale k') = false

theorem keysApart_filterItems_iff {d : Dict} :
    Dict.KeysApart (filterItems locale d) ↔ KeysStayApart locale d := by
  rw [Dict.KeysApart, KeysStayApart, filterItems_eq_map, List.map_map, List.pairwise_map,
    List.pairwise_map]
  simp only [Function.comp_apply, filterItem_eq]

/-- No string of the result has a character that is not allowed. -/
theorem clean_filterObject (o : PyObj) :
    (filterObject locale o).EachString (PyStr.Clean locale) := by
  induction o using PyObj.induction with
  | none | bool | int | float => rw [filterObject, PyObj.EachString] <;> simp
  | str s =>
    rw [filterObject, PyObj.EachString]
    exact clean_filterString s
  | list xs ih | tuple xs ih =>
    rw [filterObject, PyObj.EachString, filterObjects_eq_map]
    exact List.forall_mem_map.mpr ih
  | dict kvs ih =>
    rw [filterObject, PyObj.EachString]
    refine Dict.forall_mem_ofItems ?_
    rw [filterItems_eq_map, List.forall_mem_map]
    intro item hitem
    rw [filterItem_eq]
    exact ⟨clean_filterString item.1, ih item hitem⟩

/-- Filtering again changes nothing. -/
theorem filterObject_filterObject (o : PyObj) :
    filterObject locale (filterObject locale o) = filterObject locale o := by
  induction o using PyObj.induction with
  | none | bool | int | float => rfl
  | str s => rw [filterObject, filterObject, filterString_filterString]
  | list xs ih | tuple xs ih =>
    rw [filterObject, filterObject, filterObjects_eq_map, filterObjects_eq_map, List.map_map]
    exact congrArg _ (List.map_congr_left ih)
  | dict kvs ih =>
    have hsame : ∀ item ∈ Dict.ofItems (filterItems locale kvs),
        filterString locale item.1 = item.1 ∧ filterObject locale item.2 = item.2 := by
      refine Dict.forall_mem_ofItems (P := fun k ↦ filterString locale k = k)
        (Q := fun v ↦ filterObject locale v = v) ?_
      rw [filterItems_eq_map, List.forall_mem_map]
      intro item hitem
      rw [filterItem_eq]
      exact ⟨filterString_filterString item.1, ih item hitem⟩
    have hitems : filterItems locale (Dict.ofItems (filterItems locale kvs)) =
        Dict.ofItems (filterItems locale kvs) := by
      rw [filterItems_eq_map (Dict.ofItems _)]
      refine (List.map_congr_left fun item hitem ↦ ?_).trans (List.map_id _)
      rw [filterItem_eq, (hsame item hitem).1, (hsame item hitem).2]
      rfl
    rw [filterObject, filterObject, hitems, Dict.ofItems_of_keysApart (Dict.keysApart_ofItems _)]

theorem forall₂_filterObjects_iff {xs : List PyObj} :
    List.Forall₂ (SameShape locale) xs (filterObjects locale xs) ↔
      ∀ x ∈ xs, SameShape locale x (filterObject locale x) := by
  rw [filterObjects_eq_map, List.forall₂_map_right_iff, List.forall₂_same]

/-- Where the keys stay apart, each one gives its own value. -/
theorem get?_ofItems_filterItems {kvs : Dict} (h : KeysStayApart locale kvs)
    {item : PyStr × PyObj} (hitem : item ∈ kvs) :
    Dict.get? (filterString locale item.1) (Dict.ofItems (filterItems locale kvs)) =
      some (filterObject locale item.2) := by
  have hapart := keysApart_filterItems_iff.mpr h
  have hmem : filterItem locale item ∈ filterItems locale kvs := by
    rw [filterItems_eq_map]
    exact List.mem_map_of_mem hitem
  rw [filterItem_eq] at hmem
  rw [Dict.ofItems_of_keysApart hapart]
  exact Dict.get?_of_keysApart hapart hmem

theorem sameShape_dict_iff {kvs : Dict} :
    SameShape locale (.dict kvs) (.dict (Dict.ofItems (filterItems locale kvs))) ↔
      KeysStayApart locale kvs ∧
        ∀ item ∈ kvs, SameShape locale item.2 (filterObject locale item.2) := by
  have hlength : (filterItems locale kvs).length = kvs.length := by
    rw [filterItems_eq_map, List.length_map]
  constructor
  · intro h
    cases h with
    | dict hlen hkeys hvalues =>
      rw [← hlength, Dict.length_ofItems_eq_iff, keysApart_filterItems_iff] at hlen
      exact ⟨hlen, fun item hitem ↦ hvalues item hitem _ (get?_ofItems_filterItems hlen hitem)⟩
  · rintro ⟨hapart, hvalues⟩
    refine .dict ?_ (fun item hitem ↦ ?_) fun item hitem v hv ↦ ?_
    · rw [← hlength, Dict.length_ofItems_eq_iff, keysApart_filterItems_iff]
      exact hapart
    · rw [Dict.contains, get?_ofItems_filterItems hapart hitem]
      rfl
    · rw [get?_ofItems_filterItems hapart hitem] at hv
      cases hv
      exact hvalues item hitem

theorem sameShape_filterObject_iff (o : PyObj) :
    SameShape locale o (filterObject locale o) ↔ o.EachDict (KeysStayApart locale) := by
  induction o using PyObj.induction with
  | none => exact iff_of_true .none (by simp [PyObj.EachDict])
  | bool b => exact iff_of_true (.bool b) (by simp [PyObj.EachDict])
  | int n => exact iff_of_true (.int n) (by simp [PyObj.EachDict])
  | float x => exact iff_of_true (.float x) (by simp [PyObj.EachDict])
  | str s => exact iff_of_true (.str s) (by simp [PyObj.EachDict])
  | list xs ih =>
    rw [PyObj.EachDict, filterObject, ← forall₂_congr ih, ← forall₂_filterObjects_iff]
    exact ⟨fun h ↦ by cases h; assumption, .list⟩
  | tuple xs ih =>
    rw [PyObj.EachDict, filterObject, ← forall₂_congr ih, ← forall₂_filterObjects_iff]
    exact ⟨fun h ↦ by cases h; assumption, .tuple⟩
  | dict kvs ih =>
    rw [PyObj.EachDict, filterObject, ← forall₂_congr ih]
    exact sameShape_dict_iff

/-- **Filtering is right exactly where no two keys of a dict, at any depth, become one.** -/
theorem isFiltered_iff (o : PyObj) :
    IsFiltered locale o (filterObject locale o) ↔ o.EachDict (KeysStayApart locale) := by
  rw [← sameShape_filterObject_iff]
  exact ⟨fun h ↦ h.sameShape, fun h ↦ ⟨h, clean_filterObject o, filterObject_filterObject o⟩⟩

/-- Two keys that are both replaced altogether. -/
theorem not_isFiltered :
    ¬ IsFiltered .ascii (.dict [(.str [0x00], .int 1), (.str [0x01], .int 2)])
      (filterObject .ascii (.dict [(.str [0x00], .int 1), (.str [0x01], .int 2)])) := by
  have hone : filterObject .ascii (.dict [(.str [0x00], .int 1), (.str [0x01], .int 2)]) =
      .dict [(.unicode [0xFFFD], .int 2)] := rfl
  rw [hone]
  intro h
  cases h.sameShape with
  | dict hlength => exact absurd hlength (by decide)

end GuestAgent
