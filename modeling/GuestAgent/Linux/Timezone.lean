import GuestAgent.Library.Framing
import GuestAgent.Python.ByteString

/-!
# The time zone of a Linux guest

There are three places where a distribution may keep the name of the time zone: the target of the
symbolic link `/etc/localtime`, the file `/etc/timezone`, and an assignment to `ZONE` in
`/etc/sysconfig/clock`.  `getNameLinux` tries them in this order.

The three parsers do not agree.  A link's target is a path that ends with the name, and a name is
taken to have two components; the other two return all of it.  `getNameLinux_eq_iff` says for each
of the three configurations which names come out of it.
-/

set_option autoImplicit false

namespace GuestAgent

/-- A file that is read as a whole: it may not exist, and opening or reading it may fail. -/
inductive EtcFile where
  | absent
  | unreadable
  | content (data : Bytes)
  deriving DecidableEq

/-- What is found under `/etc`: the target of `localtime` where it is a symbolic link, and two
files. -/
structure Etc where
  localtime : Option Bytes
  timezone : EtcFile
  sysconfigClock : EtcFile

/-- `os.path.exists`. -/
def EtcFile.exists : EtcFile → Bool
  | absent => false
  | _ => true

/-- `not result`. -/
def isFalse : Option Bytes → Bool
  | none => true
  | some result => result.isEmpty

/-- `_read_etc_timezone`. -/
def readEtcTimezone : EtcFile → Option Bytes
  | .content data => some (strip data)
  | _ => none

/-- The zone a line of `/etc/sysconfig/clock` assigns. -/
def clockLine (line : Bytes) : Option Bytes :=
  match line.splitOn 0x3D with
  | [key, value] => if key = ascii "ZONE" then some (value.filter (· ≠ 0x22)) else none
  | _ => none

/-- `_parse_etc_sysconfig_clock`. -/
def parseEtcSysconfigClock : EtcFile → Option Bytes
  | .content data => (data.splitOn 0x0A).findSome? clockLine
  | _ => none

/-- `_zoneinfo_to_tz`. -/
def zoneinfoToTz (path : Bytes) : Bytes :=
  let parts := path.splitOn 0x2F
  [0x2F].intercalate (parts.drop (parts.length - 2))

/-- `_get_name_linux`. -/
def getNameLinux (etc : Etc) : Bytes :=
  let result := etc.localtime.map zoneinfoToTz
  let result :=
    if isFalse result && etc.timezone.exists then readEtcTimezone etc.timezone else result
  let result :=
    if isFalse result && etc.sysconfigClock.exists then parseEtcSysconfigClock etc.sysconfigClock
    else result
  result.getD []

/-! ## Configurations -/

/-- The name of a time zone. -/
structure ZoneName where
  components : List Bytes
  ne_nil : components ≠ []
  nonempty : ∀ c ∈ components, c ≠ []
  noSlash : ∀ c ∈ components, 0x2F ∉ c

/-- The components, joined by `/`. -/
def ZoneName.name (z : ZoneName) : Bytes := [0x2F].intercalate z.components

/-- A file in which no name is found. -/
def EtcFile.Blank : EtcFile → Prop
  | content data => ∀ b ∈ data, isSpaceByte b
  | _ => True

/-- The three configurations, each with all else that it leaves open. -/
inductive ZoneConfig where
  | symlink (path : Bytes) (timezone sysconfigClock : EtcFile)
  | timezone (sysconfigClock : EtcFile)
  | sysconfigClock (timezone : {f : EtcFile // f.Blank})
      (before after : List {l : Bytes // 0x0A ∉ l})

/-- The line that assigns a zone. -/
def zoneLine (name : Bytes) : Bytes := ascii "ZONE=\"" ++ name ++ ascii "\""

/-- The configuration that holds a name. -/
def ZoneConfig.holding (z : ZoneName) : ZoneConfig → Etc
  | symlink path file clock => ⟨some (path ++ ascii "/zoneinfo/" ++ z.name), file, clock⟩
  | timezone clock => ⟨none, .content (z.name ++ [0x0A]), clock⟩
  | sysconfigClock file before after =>
    ⟨none, file.val, .content ([0x0A].intercalate
      (before.map Subtype.val ++ zoneLine z.name :: after.map Subtype.val))⟩

/-- The first of the lines that assigns `ZONE` assigns this value.  A value has no `=` in it. -/
def Assigns (lines : List Bytes) (value : Bytes) : Prop :=
  ∃ before after, lines = before ++ (ascii "ZONE=" ++ value) :: after ∧ 0x3D ∉ value ∧
    ∀ l ∈ before, ∀ v, l = ascii "ZONE=" ++ v → 0x3D ∈ v

/-- A name comes out of a configuration.  From a link, when it has two components; from
`/etc/timezone`, when no white space stands at either end; and from `/etc/sysconfig/clock`, when it
has no `=` and no double quote in it, and no earlier line assigns another zone.  (Only white space
in `/etc/timezone` is no name, so that one in `/etc/sysconfig/clock` counts.) -/
def ZoneConfig.Reads (z : ZoneName) : ZoneConfig → Prop
  | symlink _ _ _ => z.components.length = 2
  | timezone clock =>
    Stripped z.name ∨ (∀ b ∈ z.name, isSpaceByte b) ∧ ∃ data value, clock = .content data ∧
      Assigns (data.splitOn 0x0A) value ∧ value.filter (· ≠ 0x22) = z.name
  | sysconfigClock _ before _ =>
    (0x0A ∉ z.name ∧ 0x3D ∉ z.name ∧ 0x22 ∉ z.name) ∧
      ∀ value, Assigns (before.map Subtype.val) value → value.filter (· ≠ 0x22) = z.name

/-! ## Names -/

namespace ZoneName

theorem splitOn_name (z : ZoneName) : z.name.splitOn 0x2F = z.components :=
  List.splitOn_intercalate 0x2F z.noSlash z.ne_nil

theorem name_ne_nil (z : ZoneName) : z.name ≠ [] := by
  intro h
  have hsplit := z.splitOn_name
  rw [h, List.splitOn_nil] at hsplit
  exact z.nonempty [] (by rw [← hsplit]; exact List.mem_singleton_self []) rfl

end ZoneName

/-! ## The link -/

theorem isFalse_some {s : Bytes} : isFalse (some s) = true ↔ s = [] := List.isEmpty_iff

/-- What the link says is not asked for again. -/
theorem getNameLinux_symlink {target : Bytes} (h : zoneinfoToTz target ≠ [])
    (timezone clock : EtcFile) :
    getNameLinux ⟨some target, timezone, clock⟩ = zoneinfoToTz target := by
  have hfalse : isFalse (some (zoneinfoToTz target)) = false :=
    Bool.eq_false_iff.mpr fun hnil ↦ h (isFalse_some.mp hnil)
  simp [getNameLinux, hfalse]

/-- The two last components of a path that ends in a name. -/
theorem zoneinfoToTz_eq (path : Bytes) (z : ZoneName) :
    zoneinfoToTz (path ++ ascii "/zoneinfo/" ++ z.name) =
      [0x2F].intercalate ((ascii "zoneinfo" :: z.components).drop (z.components.length - 1)) := by
  have hpos : 0 < z.components.length := List.length_pos_of_ne_nil z.ne_nil
  have hsplit : (path ++ ascii "/zoneinfo/" ++ z.name).splitOn 0x2F =
      path.splitOn 0x2F ++ ascii "zoneinfo" :: z.components := by
    have hpath : path ++ ascii "/zoneinfo/" ++ z.name =
        path ++ 0x2F :: (ascii "zoneinfo" ++ 0x2F :: z.name) := by
      rw [List.append_assoc]
      rfl
    rw [hpath, List.splitOn_append_cons_self,
      List.splitOn_append_cons_self_of_not_mem (by decide), z.splitOn_name]
  have hlen : (path.splitOn 0x2F ++ ascii "zoneinfo" :: z.components).length - 2 =
      (path.splitOn 0x2F).length + (z.components.length - 1) := by
    rw [List.length_append, List.length_cons]
    omega
  rw [zoneinfoToTz, hsplit, hlen, List.drop_length_add_append]

theorem zoneinfoToTz_eq_name_iff (path : Bytes) (z : ZoneName) :
    zoneinfoToTz (path ++ ascii "/zoneinfo/" ++ z.name) = z.name ↔ z.components.length = 2 := by
  have hpos : 0 < z.components.length := List.length_pos_of_ne_nil z.ne_nil
  rw [zoneinfoToTz_eq]
  constructor
  · intro h
    -- the components of both sides are the same
    have hsplit := congrArg (List.splitOn 0x2F) h
    rw [z.splitOn_name, List.splitOn_intercalate] at hsplit
    · have hlen := congrArg List.length hsplit
      rw [List.length_drop, List.length_cons] at hlen
      omega
    · intro c hc
      rcases List.mem_cons.mp (List.mem_of_mem_drop hc) with rfl | hc
      · decide
      · exact z.noSlash c hc
    · rw [← List.length_pos_iff, List.length_drop, List.length_cons]
      omega
  · intro h
    rw [h, List.drop_one, List.tail_cons, ZoneName.name]

theorem zoneinfoToTz_ne_nil (path : Bytes) (z : ZoneName) :
    zoneinfoToTz (path ++ ascii "/zoneinfo/" ++ z.name) ≠ [] := by
  rw [zoneinfoToTz_eq]
  intro h
  have hpos : 0 < z.components.length := List.length_pos_of_ne_nil z.ne_nil
  have hlen : ((ascii "zoneinfo" :: z.components).drop (z.components.length - 1)).length = 2 := by
    rw [List.length_drop, List.length_cons]
    omega
  obtain ⟨c, d, hcd⟩ := List.length_eq_two.mp hlen
  rw [hcd, List.intercalate_cons_cons] at h
  simp at h

/-! ## `/etc/sysconfig/clock` -/

/-- A line assigns a value without `=`. -/
theorem clockLine_eq_some_iff {line zone : Bytes} : clockLine line = some zone ↔
    ∃ value, line = ascii "ZONE=" ++ value ∧ 0x3D ∉ value ∧ value.filter (· ≠ 0x22) = zone := by
  constructor
  · intro h
    rw [clockLine] at h
    split at h
    · rename_i key value hsplit
      split at h
      · rename_i hkey
        obtain ⟨hline, -, hvalue⟩ := Framing.splitOn_eq_pair_iff.mp hsplit
        exact ⟨value, by rw [hline, hkey]; rfl, hvalue, Option.some_inj.mp h⟩
      · cases h
    · cases h
  · rintro ⟨value, rfl, hvalue, rfl⟩
    have hsplit : (ascii "ZONE=" ++ value).splitOn 0x3D = [ascii "ZONE", value] :=
      Framing.splitOn_eq_pair_iff.mpr ⟨rfl, by decide, hvalue⟩
    rw [clockLine, hsplit]
    exact if_pos rfl

theorem clockLine_eq_none_iff {line : Bytes} :
    clockLine line = none ↔ ∀ v, line = ascii "ZONE=" ++ v → 0x3D ∈ v := by
  rw [Option.eq_none_iff_forall_not_mem]
  simp only [Option.mem_def, clockLine_eq_some_iff]
  grind

theorem findSome?_clockLine_iff {lines : List Bytes} {zone : Bytes} :
    lines.findSome? clockLine = some zone ↔
      ∃ value, Assigns lines value ∧ value.filter (· ≠ 0x22) = zone := by
  rw [List.findSome?_eq_some_iff]
  simp only [clockLine_eq_some_iff, clockLine_eq_none_iff, Assigns]
  constructor
  · rintro ⟨before, line, after, rfl, ⟨value, rfl, hvalue, hzone⟩, hbefore⟩
    exact ⟨value, ⟨before, after, rfl, hvalue, hbefore⟩, hzone⟩
  · rintro ⟨value, ⟨before, after, rfl, hvalue, hbefore⟩, hzone⟩
    exact ⟨before, _, after, rfl, ⟨value, rfl, hvalue, hzone⟩, hbefore⟩

theorem parseEtcSysconfigClock_iff {clock : EtcFile} {zone : Bytes} :
    parseEtcSysconfigClock clock = some zone ↔ ∃ data value, clock = .content data ∧
      Assigns (data.splitOn 0x0A) value ∧ value.filter (· ≠ 0x22) = zone := by
  cases clock with
  | absent => simp [parseEtcSysconfigClock]
  | unreadable => simp [parseEtcSysconfigClock]
  | content data => simp [parseEtcSysconfigClock, findSome?_clockLine_iff]

/-- Where there is no link, `/etc/sysconfig/clock` is read when `/etc/timezone` has no name. -/
theorem getNameLinux_none (timezone clock : EtcFile) : getNameLinux ⟨none, timezone, clock⟩ =
    if isFalse (readEtcTimezone timezone) then (parseEtcSysconfigClock clock).getD []
    else (readEtcTimezone timezone).getD [] := by
  have htimezone : (if timezone.exists then readEtcTimezone timezone else none) =
      readEtcTimezone timezone := by
    cases timezone <;> rfl
  have hnone : isFalse none = true := rfl
  simp only [getNameLinux, Option.map_none, hnone, Bool.true_and, htimezone]
  generalize readEtcTimezone timezone = result
  rcases hfalse : isFalse result with _ | _
  · rfl
  · -- nothing has been found, so that a file that does not exist makes no difference
    have hempty : result.getD [] = [] := by
      cases result with
      | none => rfl
      | some name => exact isFalse_some.mp hfalse
    cases clock with
    | absent => exact hempty
    | unreadable => rfl
    | content data => rfl

theorem isFalse_readEtcTimezone {timezone : EtcFile} (h : timezone.Blank) :
    isFalse (readEtcTimezone timezone) = true := by
  cases timezone with
  | absent => rfl
  | unreadable => rfl
  | content data => exact isFalse_some.mpr (strip_eq_nil_iff.mpr h)

/-- A name is not empty, so that it is the result of a parser or none. -/
theorem getD_eq_name_iff {result : Option Bytes} {z : ZoneName} :
    result.getD [] = z.name ↔ result = some z.name := by
  cases result with
  | none => exact iff_of_false (fun h ↦ z.name_ne_nil h.symm) nofun
  | some name => exact Option.some_inj.symm

theorem clockLine_zoneLine {name : Bytes} (heq : 0x3D ∉ name) (hquote : 0x22 ∉ name) :
    clockLine (zoneLine name) = some name := by
  rw [clockLine_eq_some_iff]
  refine ⟨ascii "\"" ++ name ++ ascii "\"", ?_, ?_, ?_⟩
  · simp [zoneLine, ascii]
  · simp [ascii, heq]
  · have hname : name.filter (· ≠ 0x22) = name := by
      rw [List.filter_eq_self]
      intro b hb
      exact decide_eq_true fun h ↦ hquote (h ▸ hb)
    rw [List.filter_append, List.filter_append, hname]
    simp [ascii]

/-- A zone that is assigned in `/etc/sysconfig/clock` has neither a newline nor `=` nor a double
quote in it. -/
theorem notMem_of_parseEtcSysconfigClock {clock : EtcFile} {zone : Bytes}
    (h : parseEtcSysconfigClock clock = some zone) :
    0x0A ∉ zone ∧ 0x3D ∉ zone ∧ 0x22 ∉ zone := by
  obtain ⟨data, value, -, ⟨before, after, hlines, hvalue, -⟩, rfl⟩ :=
    parseEtcSysconfigClock_iff.mp h
  have hline : 0x0A ∉ ascii "ZONE=" ++ value :=
    Framing.notMem_of_mem_splitOn (l := data) (by rw [hlines]; simp)
  refine ⟨fun hmem ↦ hline ?_, fun hmem ↦ hvalue (List.mem_of_mem_filter hmem), fun hmem ↦ ?_⟩
  · exact List.mem_append_right _ (List.mem_of_mem_filter hmem)
  · exact absurd (List.of_mem_filter hmem) (by decide)

theorem splitOn_sysconfigClock {name : Bytes} (h : 0x0A ∉ name)
    (before after : List {l : Bytes // 0x0A ∉ l}) :
    ([0x0A].intercalate (before.map Subtype.val ++ zoneLine name :: after.map Subtype.val)).splitOn
      0x0A = before.map Subtype.val ++ zoneLine name :: after.map Subtype.val := by
  refine List.splitOn_intercalate 0x0A ?_ (by simp)
  intro l hl
  rcases List.mem_append.mp hl with hl | hl
  · obtain ⟨l, -, rfl⟩ := List.mem_map.mp hl
    exact l.property
  · rcases List.mem_cons.mp hl with rfl | hl
    · simp [zoneLine, ascii, h]
    · obtain ⟨l, -, rfl⟩ := List.mem_map.mp hl
      exact l.property

/-- The zone of a line is the one that is found exactly when no line before it has another one. -/
theorem findSome?_clockLine_append {before after : List Bytes} {line zone : Bytes}
    (h : clockLine line = some zone) :
    (before ++ line :: after).findSome? clockLine = some zone ↔
      ∀ zone', before.findSome? clockLine = some zone' → zone' = zone := by
  rw [List.findSome?_append, List.findSome?_cons_of_isSome (by rw [h]; rfl), h]
  cases before.findSome? clockLine with
  | none => simp
  | some zone' => simp

/-! ## All of it -/

/-- **The name comes out of a configuration exactly when it can be read from there.** -/
theorem getNameLinux_eq_iff (z : ZoneName) (config : ZoneConfig) :
    getNameLinux (config.holding z) = z.name ↔ config.Reads z := by
  cases config with
  | symlink path timezone clock =>
    rw [ZoneConfig.holding, getNameLinux_symlink (zoneinfoToTz_ne_nil path z)]
    exact zoneinfoToTz_eq_name_iff path z
  | timezone clock =>
    rw [ZoneConfig.holding, getNameLinux_none, readEtcTimezone, strip_concat_newline,
      ZoneConfig.Reads]
    by_cases hblank : strip z.name = []
    · have hstripped : ¬ Stripped z.name := fun h ↦
        z.name_ne_nil (by rw [← strip_eq_self_iff.mpr h, hblank])
      rw [if_pos (isFalse_some.mpr hblank), getD_eq_name_iff, parseEtcSysconfigClock_iff]
      exact (or_iff_right hstripped).trans (and_iff_right (strip_eq_nil_iff.mp hblank)) |>.symm
    · rw [if_neg (fun h ↦ hblank (isFalse_some.mp h)), Option.getD_some, strip_eq_self_iff]
      exact (or_iff_left fun h ↦ hblank (strip_eq_nil_iff.mpr h.1)).symm
  | sysconfigClock timezone before after =>
    rw [ZoneConfig.holding, getNameLinux_none, if_pos (isFalse_readEtcTimezone timezone.property),
      getD_eq_name_iff, ZoneConfig.Reads]
    by_cases hchars : 0x0A ∉ z.name ∧ 0x3D ∉ z.name ∧ 0x22 ∉ z.name
    · rw [and_iff_right hchars, parseEtcSysconfigClock, splitOn_sysconfigClock hchars.1,
        findSome?_clockLine_append (clockLine_zoneLine hchars.2.1 hchars.2.2)]
      constructor
      · intro h value hvalue
        exact h _ (findSome?_clockLine_iff.mpr ⟨value, hvalue, rfl⟩)
      · intro h zone hzone
        obtain ⟨value, hvalue, rfl⟩ := findSome?_clockLine_iff.mp hzone
        exact h value hvalue
    · exact iff_of_false (fun h ↦ hchars (notMem_of_parseEtcSysconfigClock h)) fun h ↦ hchars h.1

/-- A name with one component is read together with the directory it lies in. -/
theorem not_getNameLinux_eq :
    getNameLinux ((ZoneConfig.symlink (ascii "/usr/share") .absent .absent).holding
      ⟨[ascii "UTC"], by decide, by decide, by decide⟩) ≠ ascii "UTC" := by
  have hname : getNameLinux ((ZoneConfig.symlink (ascii "/usr/share") .absent .absent).holding
      ⟨[ascii "UTC"], by decide, by decide, by decide⟩) = ascii "zoneinfo/UTC" := by decide
  rw [hname]
  decide

end GuestAgent
