import GuestAgent.Library.Framing
import GuestAgent.Python.Object
import Mathlib.Data.List.DropRight

/-!
# The serial numbers of the disks

Which disk has which serial number is found out by a script, `diskmapper`, of which there are two,
and the agent reads what it has printed.

Between the two there is a format that neither checks: a line for each disk, with a bar after the
name.  `getDiskMapping_eq_iff` says what comes through it.  A bar in a serial number does no harm,
as only the first one of a line is looked at, but the end of a line does: what comes after it is
taken for another disk, and where it has no bar, no disk is reported at all.
-/

set_option autoImplicit false

namespace GuestAgent

/-! ## Lines -/

/-- `s.splitlines()`, with the beginning of a line, and after a carriage return or not. -/
def splitlinesFrom : Bool → Bytes → Bytes → List Bytes
  | _, [], [] => []
  | _, line, [] => [line]
  | cr, line, b :: s =>
    if b = 0x0A then
      -- it belongs to the carriage return before it
      if cr then splitlinesFrom false [] s
      else line :: splitlinesFrom false [] s
    else if b = 0x0D then line :: splitlinesFrom true [] s
    else splitlinesFrom false (line ++ [b]) s

/-- `s.splitlines()`. -/
def splitlines (s : Bytes) : List Bytes := splitlinesFrom false [] s

/-- No byte ends a line. -/
def NoLineEnd (s : Bytes) : Prop := 0x0A ∉ s ∧ 0x0D ∉ s

instance : DecidablePred NoLineEnd := fun _ ↦ inferInstanceAs (Decidable (_ ∧ _))

example : splitlines [0x61, 0x0D, 0x0A, 0x0D, 0x62, 0x0A, 0x0A, 0x63] =
    [[0x61], [], [0x62], [], [0x63]] := by decide

section Lines

variable {line l s : Bytes} {cr : Bool}

theorem noLineEnd_append : NoLineEnd (l ++ s) ↔ NoLineEnd l ∧ NoLineEnd s := by
  simp only [NoLineEnd, List.mem_append, not_or]
  exact and_and_and_comm

theorem noLineEnd_of_mem_splitlinesFrom (hline : NoLineEnd line)
    (h : l ∈ splitlinesFrom cr line s) : NoLineEnd l := by
  have hnil : NoLineEnd [] := by decide
  induction s generalizing cr line with
  | nil =>
    cases line with
    | nil => exact absurd h List.not_mem_nil
    | cons b line =>
      rw [List.mem_singleton.mp h]
      exact hline
  | cons b s ih =>
    rw [splitlinesFrom] at h
    split_ifs at h with hlf hcr hret
    · exact ih hnil h
    · rcases List.mem_cons.mp h with rfl | h
      · exact hline
      · exact ih hnil h
    · rcases List.mem_cons.mp h with rfl | h
      · exact hline
      · exact ih hnil h
    · refine ih (noLineEnd_append.mpr ⟨hline, ?_⟩) h
      exact ⟨fun hb ↦ hlf (List.mem_singleton.mp hb).symm,
        fun hb ↦ hret (List.mem_singleton.mp hb).symm⟩

theorem splitlinesFrom_append (hl : NoLineEnd l) (line s : Bytes) :
    splitlinesFrom false line (l ++ 0x0A :: s) = (line ++ l) :: splitlines s := by
  induction l generalizing line with
  | nil =>
    rw [List.nil_append, List.append_nil, splitlinesFrom, if_pos rfl, if_neg Bool.false_ne_true]
    rfl
  | cons b l ih =>
    obtain ⟨hb, hl⟩ := noLineEnd_append (l := [b]).mp hl
    have hlf : b ≠ 0x0A := fun h ↦ hb.1 (by rw [h]; exact List.mem_cons_self)
    have hret : b ≠ 0x0D := fun h ↦ hb.2 (by rw [h]; exact List.mem_cons_self)
    rw [List.cons_append, splitlinesFrom, if_neg hlf, if_neg hret, ih hl, List.append_assoc]
    rfl

/-- **Lines that are printed one after the other** are read one after the other. -/
theorem splitlines_terminate {ls : List Bytes} (h : ∀ l ∈ ls, NoLineEnd l) :
    splitlines (ls.flatMap (Framing.terminate 0x0A)) = ls := by
  induction ls with
  | nil => rfl
  | cons l ls ih =>
    obtain ⟨hl, hls⟩ := List.forall_mem_cons.mp h
    rw [List.flatMap_cons, Framing.terminate, List.append_assoc, List.singleton_append, splitlines,
      splitlinesFrom_append hl, ih hls, List.nil_append]

end Lines

/-! ## Keys of a dict -/

namespace Dict

theorem absent_of_absent_set {k l : PyStr} {v : PyObj} {d : Dict} (h : (d.set k v).Absent l) :
    d.Absent l ∧ k.eq l = false := by
  induction d with
  | nil => exact ⟨fun _ hitem ↦ absurd hitem List.not_mem_nil, h _ (List.mem_singleton_self _)⟩
  | cons item d ih =>
    obtain ⟨k', w⟩ := item
    rw [set] at h
    split_ifs at h with hk
    · obtain ⟨hk', hd⟩ := List.forall_mem_cons.mp h
      refine ⟨List.forall_mem_cons.mpr ⟨hk', hd⟩, Bool.eq_false_iff.mpr fun hl ↦ ?_⟩
      exact Bool.eq_false_iff.mp hk' (PyStr.eq_trans hk hl)
    · obtain ⟨hk', hd⟩ := List.forall_mem_cons.mp h
      exact ⟨List.forall_mem_cons.mpr ⟨hk', (ih hd).1⟩, (ih hd).2⟩

/-- Each item leaves its key. -/
theorem not_absent_ofItems {items : List (PyStr × PyObj)} {item : PyStr × PyObj}
    (h : item ∈ items) : ¬ (ofItems items).Absent item.1 := by
  induction items using List.reverseRecOn with
  | nil => exact absurd h List.not_mem_nil
  | append_singleton items last ih =>
    rw [ofItems_concat]
    intro habsent
    obtain ⟨hitems, hlast⟩ := absent_of_absent_set habsent
    rcases List.mem_append.mp h with h | h
    · exact ih h hitems
    · rw [List.mem_singleton.mp h, PyStr.eq_self] at hlast
      exact Bool.noConfusion hlast

end Dict

/-! ## The disks -/

/-- What became of a process whose output is to be read. -/
inductive ToolRun where
  /-- `Popen` raises `OSError`. -/
  | notStarted
  | exited (returncode : Int) (out : Bytes)

/-- `_readLinesFromProcess`. -/
def readLinesFromProcess : ToolRun → List Bytes
  | .notStarted => []
  | .exited returncode out => if returncode ≠ 0 then [] else splitlines out

/-- The loop of `getDiskMapping`. -/
def mapDisks (mapping : Dict) : List Bytes → Dict
  | [] => mapping
  | line :: lines =>
    match Framing.cut 0x7C line with
    -- the `ValueError` of a line without a bar
    | none => []
    | some (name, serial) =>
      mapDisks (mapping.set (.str serial) (.dict [(key "name", .str (.str name))])) lines

/-- `getDiskMapping`. -/
def getDiskMapping (tool : ToolRun) : Dict := mapDisks [] (readLinesFromProcess tool)

/-- The name of a device, as the kernel allows it. -/
structure DeviceName where
  text : Bytes
  noBar : 0x7C ∉ text
  noLineEnd : NoLineEnd text

/-- `"/dev/$devname"`. -/
def DeviceName.dev (devname : DeviceName) : DeviceName where
  text := ascii "/dev/" ++ devname.text
  noBar h := (List.mem_append.mp h).elim (by decide) devname.noBar
  noLineEnd := noLineEnd_append.mpr ⟨by decide, devname.noLineEnd⟩

/-- What `%s` makes of a device that has no node. -/
def DeviceName.none : DeviceName := ⟨ascii "None", by decide, by decide⟩

/-- A disk, as it is printed. -/
structure Disk where
  name : DeviceName
  serial : Bytes

/-- A device of the subsystem `block`, as libudev describes it. -/
structure UdevDevice where
  devtype : Option Bytes
  devnode : Option DeviceName
  /-- The property `ID_SERIAL`. -/
  idSerial : Option Bytes

/-- The disk that is printed of a device, if any. -/
def UdevDevice.disk (dev : UdevDevice) : Option Disk :=
  if dev.devtype = some (ascii "disk") then
    match dev.idSerial with
    | some (b :: serial) => some ⟨dev.devnode.getD .none, b :: serial⟩
    | _ => none
  else none

/-- A directory in `/sys/block`, and its `device/serial` where that is a file. -/
structure SysBlock where
  devname : DeviceName
  serialFile : Option Bytes

/-- The disk that is printed of a directory.  The shell drops the newlines at the end of what `cat`
prints. -/
def SysBlock.disk (dir : SysBlock) : Option Disk :=
  dir.serialFile.map fun contents ↦ ⟨dir.devname.dev, contents.rdropWhile (· = 0x0A)⟩

/-- The two scripts, and what they run on. -/
inductive DiskMapper where
  | libudev (devices : List UdevDevice)
  | el5 (dirs : List SysBlock)

namespace DiskMapper

def disks : DiskMapper → List Disk
  | libudev devices => devices.filterMap UdevDevice.disk
  | el5 dirs => dirs.filterMap SysBlock.disk

end DiskMapper

namespace Disk

/-- `'%s|%s' % (devnode, serial)`. -/
def line (d : Disk) : Bytes := d.name.text ++ 0x7C :: d.serial

/-- What the agent is to report of it. -/
def item (d : Disk) : PyStr × PyObj :=
  (.str d.serial, .dict [(key "name", .str (.str d.name.text))])

end Disk

/-- What the script prints. -/
def DiskMapper.output (tool : DiskMapper) : Bytes :=
  (tool.disks.map Disk.line).flatMap (Framing.terminate 0x0A)

section Disks

variable {mapping : Dict} {lines : List Bytes}

theorem noLineEnd_line {d : Disk} : NoLineEnd d.line ↔ NoLineEnd d.serial := by
  rw [Disk.line, noLineEnd_append, and_iff_right d.name.noLineEnd,
    ← List.singleton_append, noLineEnd_append, and_iff_right (by decide)]

/-- Disks that are printed are entered one after the other. -/
theorem mapDisks_map (disks : List Disk) (mapping : Dict) :
    mapDisks mapping (disks.map Disk.line) =
      (disks.map Disk.item).foldl (fun d item ↦ d.set item.1 item.2) mapping := by
  induction disks generalizing mapping with
  | nil => rfl
  | cons d disks ih =>
    rw [List.map_cons, mapDisks, Disk.line, Framing.cut_append d.name.noBar]
    exact ih _

/-- A key is part of a line. -/
theorem absent_mapDisks {s : Bytes} (hs : ¬ NoLineEnd s) (hlines : ∀ l ∈ lines, NoLineEnd l)
    (h : mapping.Absent (.str s)) : (mapDisks mapping lines).Absent (.str s) := by
  induction lines generalizing mapping with
  | nil => exact h
  | cons line lines ih =>
    obtain ⟨hline, hlines⟩ := List.forall_mem_cons.mp hlines
    rw [mapDisks]
    rcases hcut : Framing.cut 0x7C line with _ | ⟨name, serial⟩
    · exact fun item hitem ↦ absurd hitem List.not_mem_nil
    · obtain ⟨-, heq⟩ := Framing.cut_eq_some_iff.mp hcut
      rw [heq, noLineEnd_append, ← List.singleton_append, noLineEnd_append] at hline
      refine ih hlines (Dict.absent_set h ?_ _)
      rw [PyStr.eq, beq_eq_false_iff_ne]
      intro hserial
      exact hs (hserial ▸ hline.2.2)

/-- **The disks that are reported** are those the script has found, whichever it is, exactly when no
serial number contains the end of a line. -/
theorem getDiskMapping_eq_iff (tool : DiskMapper) :
    getDiskMapping (.exited 0 tool.output) = Dict.ofItems (tool.disks.map Disk.item) ↔
      ∀ d ∈ tool.disks, NoLineEnd d.serial := by
  rw [getDiskMapping, readLinesFromProcess, if_neg (not_not.mpr rfl)]
  constructor
  · intro heq d hd
    by_contra hserial
    have habsent : (mapDisks [] (splitlines tool.output)).Absent (.str d.serial) :=
      absent_mapDisks hserial (fun _ ↦ noLineEnd_of_mem_splitlinesFrom (by decide))
        fun item hitem ↦ absurd hitem List.not_mem_nil
    rw [heq] at habsent
    exact Dict.not_absent_ofItems (List.mem_map_of_mem hd) habsent
  · intro h
    have hlines : ∀ l ∈ tool.disks.map Disk.line, NoLineEnd l :=
      List.forall_mem_map.mpr fun d hd ↦ noLineEnd_line.mpr (h d hd)
    rw [DiskMapper.output, splitlines_terminate hlines, mapDisks_map]
    rfl

end Disks

/-- With a serial number of two lines, no disk at all is reported. -/
example : getDiskMapping (.exited 0 (DiskMapper.el5
    [⟨⟨ascii "sda", by decide, by decide⟩, some (ascii "one|two\n")⟩]).output) =
      [(key "one|two", .dict [(key "name", .str (key "/dev/sda"))])] ∧
    getDiskMapping (.exited 0 (DiskMapper.el5
      [⟨⟨ascii "sda", by decide, by decide⟩, some (ascii "one\n")⟩,
        ⟨⟨ascii "sdb", by decide, by decide⟩, some (ascii "two\nthree")⟩]).output) = [] :=
  ⟨rfl, rfl⟩

end GuestAgent
