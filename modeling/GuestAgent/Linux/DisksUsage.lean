import GuestAgent.Python.ByteString

/-!
# The disks usage of a Linux guest

The agent goes through the mount table and reports the size of each file system.  A line whose file
system type is to be ignored is left out, as is one where something that is not a directory has been
mounted, or where the sizes are zero and the configuration says to ignore those.  What goes wrong on
one line is logged, and the loop goes on.

`expectedUsages` is the list that this comes to.  The code differs from it in two ways.  The setting
`ignore_zero_size_fs` is a text and every text that is not empty counts as true; and whether the
mount point is a file is asked before the escapes in its path are decoded.  `getDisksUsage_eq_iff`
says which tables bring that out.
-/

set_option autoImplicit false

namespace GuestAgent

/-- What `LinuxVdsAgent.__init__` reads from the section `general` of the configuration, as text. -/
structure GeneralConfig where
  applications_list : Bytes
  ignored_nics : Bytes
  ignored_fs : Bytes
  ignore_zero_size_fs : Bytes

/-- The settings of a `LinuxDataRetriver`. -/
structure DataRetriverSettings where
  app_list : Bytes
  ignored_nics : Bytes
  ignored_fs : List Bytes
  ignore_zero_size_fs : PyObj

/-- `LinuxVdsAgent.__init__`, as far as it sets up the data retriever. -/
def linuxVdsAgentInit (general : GeneralConfig) : DataRetriverSettings where
  app_list := general.applications_list
  ignored_nics := general.ignored_nics
  ignored_fs := split general.ignored_fs
  ignore_zero_size_fs := .str (.str general.ignore_zero_size_fs)

/-- The fields of a `statvfs` result that are used. -/
structure StatVfs where
  f_bsize : Int
  f_blocks : Int
  f_bfree : Int

def StatVfs.total (s : StatVfs) : Int := s.f_bsize * s.f_blocks

def StatVfs.used (s : StatVfs) : Int := s.total - s.f_bsize * s.f_bfree

/-- An entry of the result. -/
structure DiskUsage where
  path : Bytes
  fs : Bytes
  total : Int
  used : Int
  deriving DecidableEq

/-- What the file systems answer. -/
structure Filesystems where
  /-- `os.path.isfile(path)`. -/
  isfile : Bytes → Bool
  /-- `os.statvfs(path)` for the line with this number, or nothing where it raises. -/
  statvfs : ℕ → Bytes → Option StatVfs

variable (settings : DataRetriverSettings) (os : Filesystems)

/-- One pass of the loop of `getDisksUsage`, with the entry it appends. -/
def diskUsage (i : ℕ) (mount : Bytes) : Except PyExn (Option DiskUsage) :=
  match (split mount).take 3 with
  | [_, path, fs] =>
    if fs ∉ settings.ignored_fs ∧ ¬ os.isfile path then
      match stringEscape path with
      | none => .error .valueError
      | some path =>
        match os.statvfs i path with
        | none => .error .osError
        | some statvfs =>
          if settings.ignore_zero_size_fs.truthy ∧ statvfs.used = statvfs.total ∧
              statvfs.total = 0 then .ok none
          else .ok (some ⟨path, fs, statvfs.total, statvfs.used⟩)
    else .ok none
  | _ => .error .valueError

/-- `getDisksUsage` on a mount table: the result, and the lines that are logged with an error. -/
def getDisksUsage (mounts : List Bytes) : List DiskUsage × List Bytes :=
  mounts.zipIdx.foldl (fun (usages, logged) (mount, i) ↦
    match diskUsage settings os i mount with
    | .ok (some usage) => (usages ++ [usage], logged)
    | .ok none => (usages, logged)
    | .error _ => (usages, logged ++ [mount])) ([], [])

/-! ## What is to be listed -/

/-- The text of a configured value. -/
def boolText (value : Bool) : Bytes := if value then ascii "true" else ascii "false"

/-- The entry a line of the mount table is to give. -/
def expectedUsage (ignoredFs : List Bytes) (ignoreZeroSizeFs : Bool) (i : ℕ) (mount : Bytes) :
    Option DiskUsage :=
  match split mount with
  | _ :: path :: fs :: _ => do
    let path ← stringEscape path
    let statvfs ← os.statvfs i path
    if fs ∈ ignoredFs ∨ os.isfile path ∨
        ignoreZeroSizeFs ∧ statvfs.total = 0 ∧ statvfs.used = 0 then none
    else some ⟨path, fs, statvfs.total, statvfs.used⟩
  | _ => none

def expectedUsages (ignoredFs : List Bytes) (ignoreZeroSizeFs : Bool) (mounts : List Bytes) :
    List DiskUsage :=
  mounts.zipIdx.filterMap fun (mount, i) ↦ expectedUsage os ignoredFs ignoreZeroSizeFs i mount

/-! ## One line -/

/-- A line of the table that has three fields, with a type that is not ignored and a path that can
be decoded and measured. -/
structure Measured (ignoredFs : List Bytes) (i : ℕ) (mount : Bytes) where
  device : Bytes
  escaped : Bytes
  fs : Bytes
  rest : List Bytes
  path : Bytes
  statvfs : StatVfs
  split_eq : split mount = device :: escaped :: fs :: rest
  fs_notMem : fs ∉ ignoredFs
  stringEscape_eq : stringEscape escaped = some path
  statvfs_eq : os.statvfs i path = some statvfs

/-- Both sizes are zero. -/
def StatVfs.IsZero (s : StatVfs) : Prop := s.total = 0 ∧ s.used = 0

instance (s : StatVfs) : Decidable s.IsZero := inferInstanceAs (Decidable (_ ∧ _))

/-- The entry of a line. -/
def Measured.entry {ignoredFs : List Bytes} {i : ℕ} {mount : Bytes}
    (m : Measured os ignoredFs i mount) : DiskUsage :=
  ⟨m.path, m.fs, m.statvfs.total, m.statvfs.used⟩

/-- Where the sizes are zero, the line is left out by both: zero sizes are to be ignored, or
something that is a file has been mounted.  Otherwise the path with its escapes names a file
exactly when the path without them does. -/
def Clear (ignoredFs : List Bytes) (ignoreZeroSizeFs : Bool) (i : ℕ) (mount : Bytes) : Prop :=
  ∀ m : Measured os ignoredFs i mount,
    if m.statvfs.IsZero then ignoreZeroSizeFs ∨ os.isfile m.path
    else os.isfile m.escaped = os.isfile m.path

/-- The entry the loop appends. -/
def appendedUsage (i : ℕ) (mount : Bytes) : Option DiskUsage :=
  (diskUsage settings os i mount).toOption.join

variable {os} {settings} {ignoredFs : List Bytes} {flag : Bool} {i : ℕ} {mount : Bytes}

theorem expectedUsage_eq (m : Measured os ignoredFs i mount) :
    expectedUsage os ignoredFs flag i mount =
      if os.isfile m.path ∨ flag ∧ m.statvfs.IsZero then none else some (m.entry os) := by
  have hunfold : expectedUsage os ignoredFs flag i mount =
      if m.fs ∈ ignoredFs ∨ os.isfile m.path ∨
        flag ∧ m.statvfs.total = 0 ∧ m.statvfs.used = 0 then none else some (m.entry os) := by
    simp only [expectedUsage, m.split_eq, m.stringEscape_eq, m.statvfs_eq, Option.bind_eq_bind,
      Option.bind_some]
    rfl
  rw [hunfold]
  exact ite_congr (propext (or_iff_right m.fs_notMem)) (fun _ ↦ rfl) fun _ ↦ rfl

theorem appendedUsage_eq (hfs : settings.ignored_fs = ignoredFs)
    (hzero : settings.ignore_zero_size_fs.truthy = true) (m : Measured os ignoredFs i mount) :
    appendedUsage settings os i mount =
      if os.isfile m.escaped ∨ m.statvfs.IsZero then none else some (m.entry os) := by
  have htake : (split mount).take 3 = [m.device, m.escaped, m.fs] := by rw [m.split_eq]; rfl
  have hsizes : m.statvfs.used = m.statvfs.total ∧ m.statvfs.total = 0 ↔ m.statvfs.IsZero := by
    rw [StatVfs.IsZero]
    omega
  simp only [appendedUsage, diskUsage, htake, hfs, m.fs_notMem, not_false_eq_true, true_and,
    m.stringEscape_eq, m.statvfs_eq, hzero, hsizes]
  cases os.isfile m.escaped <;> by_cases hz : m.statvfs.IsZero <;> simp [hz, Measured.entry] <;> rfl

/-- A line that is not measured gives no entry. -/
theorem exists_measured_of_appended (hfs : settings.ignored_fs = ignoredFs) {usage : DiskUsage}
    (h : appendedUsage settings os i mount = some usage) :
    Nonempty (Measured os ignoredFs i mount) := by
  rw [appendedUsage, diskUsage] at h
  rcases hsplit : split mount with _ | ⟨device, _ | ⟨escaped, _ | ⟨fs, rest⟩⟩⟩ <;>
    rw [hsplit] at h
  · cases h
  · cases h
  · cases h
  · have htake : (device :: escaped :: fs :: rest).take 3 = [device, escaped, fs] := rfl
    simp only [htake, hfs] at h
    split at h
    · rename_i hnot
      rcases hpath : stringEscape escaped with _ | path
      · rw [hpath] at h
        cases h
      · rcases hstat : os.statvfs i path with _ | statvfs
        · simp only [hpath, hstat] at h
          cases h
        · exact ⟨⟨_, _, _, _, _, _, hsplit, hnot.1, hpath, hstat⟩⟩
    · cases h

/-- Nor is it to give one. -/
theorem exists_measured_of_expected {usage : DiskUsage}
    (h : expectedUsage os ignoredFs flag i mount = some usage) :
    Nonempty (Measured os ignoredFs i mount) := by
  rw [expectedUsage] at h
  rcases hsplit : split mount with _ | ⟨device, _ | ⟨escaped, _ | ⟨fs, rest⟩⟩⟩ <;>
    rw [hsplit] at h
  · cases h
  · cases h
  · cases h
  · obtain ⟨path, hpath, h⟩ := Option.bind_eq_some_iff.mp h
    obtain ⟨statvfs, hstat, h⟩ := Option.bind_eq_some_iff.mp h
    split at h
    · cases h
    · rename_i hnot
      exact ⟨⟨_, _, _, _, _, _, hsplit, fun hmem ↦ hnot (.inl hmem), hpath, hstat⟩⟩

/-! ## The table -/

section FilterMap

variable {α β : Type} {f g : α → Option β} {l : List α}

theorem length_filterMap_le_of_forall (h : ∀ x ∈ l, f x = none ∨ f x = g x) :
    (l.filterMap f).length ≤ (l.filterMap g).length := by
  induction l with
  | nil => exact Nat.le_refl 0
  | cons x l ih =>
    obtain ⟨hx, hl⟩ := List.forall_mem_cons.mp h
    have hle := ih hl
    rcases hx with hx | hx
    · rw [List.filterMap_cons_none hx, List.filterMap_cons]
      cases g x with
      | none => exact hle
      | some y => exact Nat.le_succ_of_le hle
    · rw [List.filterMap_cons, List.filterMap_cons, hx]
      cases g x with
      | none => exact hle
      | some y => exact Nat.succ_le_succ hle

/-- A function that gives less than another one gives the same list only if it gives the same
everywhere. -/
theorem filterMap_eq_iff_of_forall (h : ∀ x ∈ l, f x = none ∨ f x = g x) :
    l.filterMap f = l.filterMap g ↔ ∀ x ∈ l, f x = g x := by
  refine ⟨fun heq ↦ ?_, List.filterMap_congr⟩
  induction l with
  | nil => exact List.forall_mem_nil _
  | cons x l ih =>
    obtain ⟨hx, hl⟩ := List.forall_mem_cons.mp h
    have hle := length_filterMap_le_of_forall hl
    refine List.forall_mem_cons.mpr ?_
    rcases hx with hx | hx
    · rw [List.filterMap_cons_none hx] at heq
      rcases hg : g x with _ | y
      · rw [List.filterMap_cons_none hg] at heq
        exact ⟨hx, ih hl heq⟩
      · rw [List.filterMap_cons_some hg] at heq
        rw [heq, List.length_cons] at hle
        omega
    · rcases hg : g x with _ | y <;> rw [hg] at hx
      · rw [List.filterMap_cons_none hx, List.filterMap_cons_none hg] at heq
        exact ⟨hx, ih hl heq⟩
      · rw [List.filterMap_cons_some hx, List.filterMap_cons_some hg] at heq
        exact ⟨hx, ih hl (List.cons.inj heq).2⟩

end FilterMap

/-- The loop appends what each line gives, whatever goes wrong on other lines. -/
theorem getDisksUsage_eq (mounts : List Bytes) : (getDisksUsage settings os mounts).1 =
    mounts.zipIdx.filterMap fun (mount, i) ↦ appendedUsage settings os i mount := by
  have hfold : ∀ (lines : List (Bytes × ℕ)) (usages : List DiskUsage) (logged : List Bytes),
      (lines.foldl (fun (usages, logged) (mount, i) ↦
        match diskUsage settings os i mount with
        | .ok (some usage) => (usages ++ [usage], logged)
        | .ok none => (usages, logged)
        | .error _ => (usages, logged ++ [mount])) (usages, logged)).1 =
      usages ++ lines.filterMap fun (mount, i) ↦ appendedUsage settings os i mount := by
    intro lines
    induction lines with
    | nil => exact fun usages logged ↦ (List.append_nil usages).symm
    | cons line lines ih =>
      intro usages logged
      obtain ⟨mount, i⟩ := line
      rw [List.foldl_cons, List.filterMap_cons]
      dsimp only
      rw [appendedUsage]
      rcases diskUsage settings os i mount with e | (_ | usage)
      · exact ih usages _
      · exact ih usages logged
      · exact (ih (usages ++ [usage]) logged).trans (List.append_assoc ..)
  exact hfold mounts.zipIdx [] []

/-- A line gives what it is to give exactly when it is clear. -/
theorem appendedUsage_eq_iff (hfs : settings.ignored_fs = ignoredFs)
    (hzero : settings.ignore_zero_size_fs.truthy = true) :
    appendedUsage settings os i mount = expectedUsage os ignoredFs flag i mount ↔
      Clear os ignoredFs flag i mount := by
  have hline : ∀ m : Measured os ignoredFs i mount,
      appendedUsage settings os i mount = expectedUsage os ignoredFs flag i mount ↔
        if m.statvfs.IsZero then flag ∨ os.isfile m.path
        else os.isfile m.escaped = os.isfile m.path := by
    intro m
    rw [appendedUsage_eq hfs hzero m, expectedUsage_eq m]
    by_cases hz : m.statvfs.IsZero <;> cases os.isfile m.escaped <;> cases os.isfile m.path <;>
      cases flag <;> simp [hz]
  refine ⟨fun heq m ↦ (hline m).mp heq, fun hclear ↦ ?_⟩
  by_cases hm : Nonempty (Measured os ignoredFs i mount)
  · obtain ⟨m⟩ := hm
    exact (hline m).mpr (hclear m)
  · have happended : appendedUsage settings os i mount = none :=
      Option.eq_none_iff_forall_ne_some.mpr fun usage h ↦ hm (exists_measured_of_appended hfs h)
    have hexpected : expectedUsage os ignoredFs flag i mount = none :=
      Option.eq_none_iff_forall_ne_some.mpr fun usage h ↦ hm (exists_measured_of_expected h)
    rw [happended, hexpected]

/-- What is listed although it is not to be is a file. -/
theorem appendedUsage_cases (hfs : settings.ignored_fs = ignoredFs)
    (hzero : settings.ignore_zero_size_fs.truthy = true)
    (hfile : ∀ usage, appendedUsage settings os i mount = some usage →
      os.isfile usage.path = false) :
    appendedUsage settings os i mount = none ∨
      appendedUsage settings os i mount = expectedUsage os ignoredFs flag i mount := by
  rcases happended : appendedUsage settings os i mount with _ | usage
  · exact .inl rfl
  · obtain ⟨m⟩ := exists_measured_of_appended hfs happended
    have hpath := hfile usage happended
    rw [appendedUsage_eq hfs hzero m] at happended
    split at happended
    · cases happended
    · rename_i hnot
      cases happended
      change os.isfile m.path = false at hpath
      right
      rw [expectedUsage_eq m, if_neg]
      rintro (h | ⟨-, hz⟩)
      · rw [hpath] at h
        cases h
      · exact hnot (.inr hz)

theorem isfile_expectedUsage {usage : DiskUsage}
    (h : expectedUsage os ignoredFs flag i mount = some usage) : os.isfile usage.path = false := by
  obtain ⟨m⟩ := exists_measured_of_expected h
  rw [expectedUsage_eq m] at h
  split at h
  · cases h
  · rename_i hnot
    cases h
    exact Bool.eq_false_iff.mpr fun hfile ↦ hnot (.inl hfile)

/-- **The result is the one expected exactly when every line is clear.** -/
theorem getDisksUsage_eq_iff (general : GeneralConfig) (ignoreZeroSizeFs : Bool) (os : Filesystems)
    (mounts : List Bytes) :
    (getDisksUsage (linuxVdsAgentInit
        { general with ignore_zero_size_fs := boolText ignoreZeroSizeFs }) os mounts).1 =
      expectedUsages os (split general.ignored_fs) ignoreZeroSizeFs mounts ↔
    ∀ line ∈ mounts.zipIdx,
      Clear os (split general.ignored_fs) ignoreZeroSizeFs line.2 line.1 := by
  generalize hsettings : linuxVdsAgentInit
    { general with ignore_zero_size_fs := boolText ignoreZeroSizeFs } = settings
  have hfs : settings.ignored_fs = split general.ignored_fs := by rw [← hsettings]; rfl
  -- the text of either value counts as true
  have hzero : settings.ignore_zero_size_fs.truthy = true := by
    rw [← hsettings]
    cases ignoreZeroSizeFs <;> rfl
  rw [getDisksUsage_eq, expectedUsages]
  constructor
  · intro heq
    have hcases : ∀ line ∈ mounts.zipIdx,
        appendedUsage settings os line.2 line.1 = none ∨
          appendedUsage settings os line.2 line.1 =
            expectedUsage os (split general.ignored_fs) ignoreZeroSizeFs line.2 line.1 := by
      intro line hline
      refine appendedUsage_cases hfs hzero fun usage husage ↦ ?_
      have hmem : usage ∈ mounts.zipIdx.filterMap
          fun (mount, i) ↦ appendedUsage settings os i mount :=
        List.mem_filterMap.mpr ⟨line, hline, husage⟩
      rw [heq] at hmem
      obtain ⟨line', -, hexpected⟩ := List.mem_filterMap.mp hmem
      exact isfile_expectedUsage hexpected
    exact fun line hline ↦ (appendedUsage_eq_iff hfs hzero).mp
      ((filterMap_eq_iff_of_forall hcases).mp heq line hline)
  · exact fun hclear ↦ List.filterMap_congr fun line hline ↦
      (appendedUsage_eq_iff hfs hzero).mpr (hclear line hline)

/-- A file system of size zero, where these are not to be ignored. -/
theorem not_getDisksUsage_eq :
    (getDisksUsage (linuxVdsAgentInit ⟨[], [], ascii "tmpfs", boolText false⟩)
        ⟨fun _ ↦ false, fun _ _ ↦ some ⟨4096, 0, 0⟩⟩ [ascii "none /mnt overlay rw 0 0\n"]).1 ≠
      expectedUsages ⟨fun _ ↦ false, fun _ _ ↦ some ⟨4096, 0, 0⟩⟩ (split (ascii "tmpfs")) false
        [ascii "none /mnt overlay rw 0 0\n"] := by
  have hexpected : expectedUsages ⟨fun _ ↦ false, fun _ _ ↦ some ⟨4096, 0, 0⟩⟩
      (split (ascii "tmpfs")) false [ascii "none /mnt overlay rw 0 0\n"] =
        [⟨ascii "/mnt", ascii "overlay", 0, 0⟩] := by decide
  rw [hexpected]
  decide

end GuestAgent
