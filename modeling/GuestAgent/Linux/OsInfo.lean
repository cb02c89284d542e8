import GuestAgent.Library.Framing
import GuestAgent.Python.ByteString
import Mathlib.Logic.Function.Basic

/-!
# The operating system

`ovirt-osinfo` prints what the module `platform` knows, one `key=value` a line, and `getOsInfo`
reads it.  A value may contain an equals sign, as only the first one of a line is looked at, and may
begin with white space, but it loses the white space at its end, and what comes after a newline is
taken for another line.  `getOsInfo_eq_iff` says that nothing else is lost.
-/

set_option autoImplicit false

namespace GuestAgent

/-- The keys of the dict that `getOsInfo` returns. -/
inductive OsKey where
  | version | distribution | codename | arch | type | kernel
  deriving DecidableEq

namespace OsKey

def name : OsKey → Bytes
  | version => ascii "version"
  | distribution => ascii "distribution"
  | codename => ascii "codename"
  | arch => ascii "arch"
  | type => ascii "type"
  | kernel => ascii "kernel"

/-- The key of a name. -/
def ofName (name : Bytes) : Option OsKey :=
  [version, distribution, codename, arch, type, kernel].find? (·.name = name)

theorem ofName_name (k : OsKey) : ofName k.name = some k := by
  cases k <;> decide

end OsKey

/-- The dict that `getOsInfo` returns. -/
abbrev OsInfo := OsKey → Bytes

/-- What it has before anything is read. -/
def OsInfo.default : OsInfo
  | .type => ascii "linux"
  | _ => []

/-- `if v and k in result: result[k] = v`. -/
def OsInfo.enter (k v : Bytes) (result : OsInfo) : OsInfo :=
  match OsKey.ofName k with
  | some key => if v = [] then result else Function.update result key v
  | none => result

/-- The loop of `getOsInfo`. -/
def readOsInfo (result : OsInfo) : List Bytes → OsInfo
  | [] => result
  | line :: lines =>
    if strip line = [] then readOsInfo result lines
    else
      match Framing.cut 0x3D (strip line) with
      -- the `ValueError` is caught outside the loop
      | none => result
      | some (k, v) => readOsInfo (result.enter k v) lines

/-- `getOsInfo`, of what the script prints, or of nothing where it cannot be run. -/
def getOsInfo : Option Bytes → OsInfo
  | none => .default
  | some out => readOsInfo .default (out.splitOn 0x0A)

/-! ## The script -/

/-- `s.lower()`. -/
def lower (s : Bytes) : Bytes := s.map fun b ↦ if 0x41 ≤ b && b ≤ 0x5A then b + 0x20 else b

/-- What `platform` knows. -/
structure PlatformInfo where
  /-- `linux_distribution()`, or what `dist()` and `/etc/redhat-release` make of it. -/
  distribution : Bytes
  version : Bytes
  codename : Bytes
  /-- `uname()[-2]`. -/
  machine : Bytes
  release : Bytes

namespace PlatformInfo

variable (info : PlatformInfo)

/-- `get_arch`. -/
def getArch : Bytes :=
  let arch := strip (lower info.machine)
  ([(ascii "i686", ascii "x86"), (ascii "i586", ascii "x86"),
    (ascii "i386", ascii "x86")].lookup arch).getD arch

/-- What is printed under each key. -/
def value : OsInfo
  | .distribution => info.distribution
  | .version => info.version
  | .codename => info.codename
  | .arch => info.getArch
  | .kernel => info.release
  | .type => ascii "linux"

/-- `print 'key=%s' % value`, without the newline. -/
def line (k : OsKey) : Bytes := k.name ++ 0x3D :: info.value k

/-- `ovirt-osinfo`. -/
def osinfo : Bytes :=
  ([.distribution, .version, .codename, .arch, .kernel, .type].map info.line).flatMap
    (Framing.terminate 0x0A)

end PlatformInfo

/-! ## What comes through -/

/-- A value that comes through: it has no newline, and no white space at its end. -/
def Printable (v : Bytes) : Prop := 0x0A ∉ v ∧ v.rdropWhile isSpaceByte = v

instance : DecidablePred Printable := fun _ ↦ inferInstanceAs (Decidable (_ ∧ _))

theorem rdropWhile_append_cons {b : UInt8} (hb : ¬ isSpaceByte b) (k v : Bytes) :
    (k ++ b :: v).rdropWhile isSpaceByte = k ++ b :: v.rdropWhile isSpaceByte := by
  induction v using List.reverseRecOn with
  | nil => exact List.rdropWhile_concat_neg _ _ _ hb
  | append_singleton v c ih =>
    rw [← List.cons_append, ← List.append_assoc, List.rdropWhile_concat, List.rdropWhile_concat]
    split_ifs
    · exact ih
    · rw [List.append_assoc, List.cons_append]

section OsInfo

variable {result : OsInfo} {lines : List Bytes}

theorem enter_name (k : OsKey) (v : Bytes) (result : OsInfo) :
    result.enter k.name v = if v = [] then result else Function.update result k v := by
  rw [OsInfo.enter, OsKey.ofName_name]

theorem printable_enter {k v : Bytes} (hv : Printable v) (h : ∀ key, Printable (result key)) :
    ∀ key, Printable (result.enter k v key) := by
  intro key
  rw [OsInfo.enter]
  rcases OsKey.ofName k with _ | key'
  · exact h key
  · dsimp only
    split_ifs
    · exact h key
    · rw [Function.update_apply]
      split_ifs
      · exact hv
      · exact h key

/-- The value in a line can be printed. -/
theorem printable_of_cut {line k v : Bytes} (hline : 0x0A ∉ line)
    (h : Framing.cut 0x3D (strip line) = some (k, v)) : Printable v := by
  obtain ⟨-, hstrip⟩ := Framing.cut_eq_some_iff.mp h
  constructor
  · intro hv
    have hmem : 0x0A ∈ strip line := by
      rw [hstrip]
      exact List.mem_append_right _ (List.mem_cons_of_mem _ hv)
    exact hline ((List.dropWhile_sublist _).mem ((List.rdropWhile_prefix _ _).sublist.mem hmem))
  · have hlast : (strip line).rdropWhile isSpaceByte = strip line := by
      rw [strip, List.rdropWhile_idempotent]
    rw [hstrip, rdropWhile_append_cons (by decide)] at hlast
    exact List.tail_eq_of_cons_eq (List.append_cancel_left hlast)

theorem printable_readOsInfo (hlines : ∀ l ∈ lines, 0x0A ∉ l) (h : ∀ k, Printable (result k)) :
    ∀ k, Printable (readOsInfo result lines k) := by
  induction lines generalizing result with
  | nil => exact h
  | cons line lines ih =>
    obtain ⟨hline, hlines⟩ := List.forall_mem_cons.mp hlines
    rw [readOsInfo]
    split_ifs
    · exact ih hlines h
    · rcases hcut : Framing.cut 0x3D (strip line) with _ | ⟨k, v⟩
      · exact h
      · exact ih hlines (printable_enter (printable_of_cut hline hcut) h)

/-- A line that is printed is read as it was meant. -/
theorem readOsInfo_line (info : PlatformInfo) {k : OsKey} (hk : Printable (info.value k))
    (result : OsInfo) (lines : List Bytes) : readOsInfo result (info.line k :: lines) =
      readOsInfo (if info.value k = [] then result else Function.update result k (info.value k))
        lines := by
  have hstrip : strip (info.line k) = info.line k := by
    have hdrop : (info.line k).dropWhile isSpaceByte = info.line k := by
      cases k <;> rfl
    rw [strip, hdrop, PlatformInfo.line, rdropWhile_append_cons (by decide), hk.2]
  have hne : info.line k ≠ [] := List.append_ne_nil_of_right_ne_nil _ (List.cons_ne_nil _ _)
  have heq : 0x3D ∉ k.name := by
    cases k <;> decide
  rw [readOsInfo, hstrip, if_neg hne, PlatformInfo.line, Framing.cut_append heq, ← enter_name]

/-- Whatever is missing is read from the lines of its key. -/
theorem readOsInfo_lines {info : PlatformInfo} (h : ∀ k, Printable (info.value k))
    {keys : List OsKey} (hresult : ∀ k, result k = info.value k ∨ result k = [] ∧ k ∈ keys) :
    readOsInfo result (keys.map info.line ++ [[]]) = info.value := by
  induction keys generalizing result with
  | nil =>
    funext k
    exact (hresult k).resolve_right fun hk ↦ absurd hk.2 List.not_mem_nil
  | cons key keys ih =>
    rw [List.map_cons, List.cons_append, readOsInfo_line info (h key)]
    refine ih fun k ↦ ?_
    by_cases hk : k = key
    · rw [hk]
      left
      split_ifs with hnil
      · exact (hresult key).elim id fun hkey ↦ hkey.1.trans hnil.symm
      · exact Function.update_self ..
    · have hsame : (if info.value key = [] then result
          else Function.update result key (info.value key)) k = result k := by
        split_ifs
        · rfl
        · exact Function.update_of_ne hk ..
      rw [hsame]
      exact (hresult k).imp_right (And.imp_right fun hmem ↦ (List.mem_cons.mp hmem).resolve_left hk)

/-- **What the host is told** of the operating system is what `platform` says, exactly when no value
has a newline or ends in white space. -/
theorem getOsInfo_eq_iff (info : PlatformInfo) :
    getOsInfo (some info.osinfo) = info.value ↔ ∀ k, Printable (info.value k) := by
  constructor
  · intro heq
    rw [← heq]
    refine printable_readOsInfo (fun l ↦ Framing.notMem_of_mem_splitOn) fun k ↦ ?_
    cases k <;> decide
  · intro h
    have hlines (keys : List OsKey) :
        ((keys.map info.line).flatMap (Framing.terminate 0x0A)).splitOn 0x0A =
          keys.map info.line ++ [[]] := by
      have hline : ∀ l ∈ keys.map info.line, 0x0A ∉ l := by
        refine List.forall_mem_map.mpr fun k _ ↦ ?_
        rw [PlatformInfo.line, List.mem_append, List.mem_cons, not_or, not_or]
        exact ⟨by cases k <;> decide, by decide, (h k).1⟩
      rw [← List.append_nil (List.flatMap _ _), ← Framing.lines_concat_tail,
        Framing.lines_terminate hline List.not_mem_nil,
        Framing.tail_terminate hline List.not_mem_nil]
    rw [getOsInfo, PlatformInfo.osinfo, hlines]
    refine readOsInfo_lines h fun k ↦ ?_
    cases k with
    | type => exact .inl rfl
    | _ => exact .inr ⟨rfl, by decide⟩

end OsInfo

end GuestAgent
