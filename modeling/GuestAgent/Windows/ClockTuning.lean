import GuestAgent.Python.Numeral
import Mathlib.Data.Prod.Lex

/-!
# The clock of a Windows guest

At start the agent lets the Windows kernel choose its own time source, on versions of Windows above
6.0 (Vista and Server 2008).  The version is asked for as two numbers, written down as text by
`WinOsTypeHandler.getWinOsType`, and taken apart again by `applyClockTuning`, which compares the
major version with `'6'` as the strings they are.

So the order is that of numerals as texts, which is the order of numbers as long as they have one
digit.  `tunes_iff` says for which versions the outcome is the right one all the same: from ten on,
those whose first digit is at least six.
-/

set_option autoImplicit false

namespace GuestAgent

/-- The fields of `OSVERSIONINFOEXW` that are read. -/
structure OsVersionInfo where
  dwMajorVersion : ℕ
  dwMinorVersion : ℕ
  dwBuildNumber : ℕ
  wProductType : Int

namespace WinOsTypeHandler

def WIN2003 : Bytes := ascii "Win 2003"
def WIN2008 : Bytes := ascii "Win 2008"
def WIN2008R2 : Bytes := ascii "Win 2008 R2"
def WIN2012 : Bytes := ascii "Win 2012"
def WIN2012R2 : Bytes := ascii "Win 2012 R2"
def WIN2016 : Bytes := ascii "Win 2016"
def WIN2019 : Bytes := ascii "Win 2019"
def WIN2K : Bytes := ascii "Win 2000"
def WINXP : Bytes := ascii "Win XP"
def WINVISTA : Bytes := ascii "Win Vista"
def WIN7 : Bytes := ascii "Win 7"
def WIN8 : Bytes := ascii "Win 8"
def WIN81 : Bytes := ascii "Win 8.1"
def WIN10 : Bytes := ascii "Win 10"
def UNKNOWN : Bytes := ascii "Unknown"

/-- An entry of a version matrix: a name, or the last build of each name. -/
inductive Entry where
  | name (name : Bytes)
  | builds (buildList : List (ℕ × Bytes))

def desktopVersionMatrix : List (Bytes × Entry) :=
  [(ascii "5.0", .name WIN2K),
   (ascii "5.1", .name WINXP),
   (ascii "6.0", .name WINVISTA),
   (ascii "6.1", .name WIN7),
   (ascii "6.2", .name WIN8),
   (ascii "6.3", .name WIN81),
   (ascii "10.0", .name WIN10)]

def serverVersionMatrix : List (Bytes × Entry) :=
  [(ascii "5.2", .name WIN2003),
   (ascii "6.0", .name WIN2008),
   (ascii "6.1", .name WIN2008R2),
   (ascii "6.2", .name WIN2012),
   (ascii "6.3", .name WIN2012R2),
   (ascii "10.0", .builds [(17763, WIN2019), (14393, WIN2016)])]

def VER_NT_WORKSTATION : Int := 1

/-- The name in an entry: of the builds in the list, the last one that is not older. -/
def Entry.resolve (dwBuildNumber : ℕ) : Entry → Bytes
  | .name n => n
  | .builds buildList =>
    buildList.foldl (fun n b ↦ if dwBuildNumber ≤ b.1 then b.2 else n) (ascii "")

/-- `getWinOsType`, where `RtlGetVersion` returns `retcode` and has filled in `os`. -/
def getWinOsType (retcode : Int) (os : OsVersionInfo) : List (Bytes × Bytes) :=
  if retcode = 0 then
    let matrix :=
      if os.wProductType = VER_NT_WORKSTATION then desktopVersionMatrix else serverVersionMatrix
    let version := strNat os.dwMajorVersion ++ ascii "." ++ strNat os.dwMinorVersion
    let name := ((matrix.lookup version).getD (.name (ascii ""))).resolve os.dwBuildNumber
    [(ascii "name", name), (ascii "version", version)]
  else
    [(ascii "name", UNKNOWN), (ascii "version", ascii "")]

end WinOsTypeHandler

/-- The command of `remove_bcd_useplatformclock`. -/
def removeBcdUseplatformclock : List Bytes :=
  [ascii "%SystemRoot%\\sysnative\\bcdedit.exe", ascii "/deletevalue",
   ascii "\x7bcurrent\x7d", ascii "USEPLATFORMCLOCK"]

/-- `apply_clock_tuning`: the commands that are called, or `none` where `parts` is too short. -/
def applyClockTuning (retcode : Int) (os : OsVersionInfo) : Option (List (List Bytes)) :=
  let osinfo := WinOsTypeHandler.getWinOsType retcode os
  let parts := ((osinfo.lookup (ascii "version")).getD (ascii "6.0")).splitOn 0x2E
  do
    let major ← parts[0]?
    if ascii "6" ≤ major then
      if major = ascii "6" then
        -- skip 6.0 and lower
        let minor ← parts[1]?
        if minor = ascii "0" then some [] else some [removeBcdUseplatformclock]
      else some [removeBcdUseplatformclock]
    else some []

/-! ## The order of the numerals -/

theorem dot_notMem_strNat (n : ℕ) : 0x2E ∉ strNat n := by
  intro h
  obtain ⟨d, hd, heq⟩ := exists_digit_of_mem h
  have htoNat := congrArg UInt8.toNat heq
  rw [digit_toNat hd] at htoNat
  change 0x2E = 0x30 + d at htoNat
  omega

/-- The version is taken apart into the numbers it was made of. -/
theorem splitOn_version (major minor : ℕ) :
    (strNat major ++ ascii "." ++ strNat minor).splitOn 0x2E = [strNat major, strNat minor] := by
  rw [List.append_assoc]
  change (strNat major ++ 0x2E :: strNat minor).splitOn 0x2E = _
  rw [List.splitOn_append_cons_self_of_not_mem (dot_notMem_strNat major),
    List.splitOn_eq_singleton (dot_notMem_strNat minor)]

/-- A numeral is at least the numeral of a digit, as a text, when its first digit is. -/
theorem digit_le_strNat_iff {d : ℕ} (hd : d < 10) (n : ℕ) :
    [digit d] ≤ strNat n ↔ d ≤ leadingDigit n := by
  rcases hn : strNat n with _ | ⟨b, l⟩
  · exact absurd hn (strNat_ne_nil n)
  · have hhead := head?_strNat n
    rw [hn, List.head?_cons, Option.some_inj] at hhead
    rw [List.cons_le_cons_iff, hhead, ← digit_le_iff hd (leadingDigit_lt n)]
    constructor
    · rintro (h | ⟨h, -⟩)
      · exact UInt8.le_of_lt h
      · exact UInt8.le_of_eq h
    · intro h
      rcases UInt8.lt_or_eq_of_le h with h | h
      · exact .inl h
      · exact .inr ⟨h, List.nil_le l⟩

/-! ## Which versions -/

section

variable (os : OsVersionInfo)

theorem lookup_version : (WinOsTypeHandler.getWinOsType 0 os).lookup (ascii "version") =
    some (strNat os.dwMajorVersion ++ ascii "." ++ strNat os.dwMinorVersion) := by
  rfl

/-- What is compared, in numbers. -/
theorem applyClockTuning_eq : applyClockTuning 0 os =
    if 6 ≤ leadingDigit os.dwMajorVersion ∧ ¬ (os.dwMajorVersion = 6 ∧ os.dwMinorVersion = 0) then
      some [removeBcdUseplatformclock]
    else some [] := by
  have h6 : ascii "6" = [digit 6] := rfl
  have h0 : ascii "0" = [digit 0] := rfl
  rw [applyClockTuning, lookup_version]
  simp only [Option.getD_some, splitOn_version, h6, h0]
  simp only [List.getElem?_cons_zero, List.getElem?_cons_succ, Option.bind_eq_bind,
    Option.bind_some, digit_le_strNat_iff (by decide : 6 < 10),
    strNat_eq_digit_iff (by decide : 6 < 10), strNat_eq_digit_iff (by decide : 0 < 10)]
  split_ifs <;> simp_all

theorem tunes_iff_numbers : applyClockTuning 0 os = some [removeBcdUseplatformclock] ↔
    6 ≤ leadingDigit os.dwMajorVersion ∧ ¬ (os.dwMajorVersion = 6 ∧ os.dwMinorVersion = 0) := by
  rw [applyClockTuning_eq]
  split_ifs with h
  · exact iff_of_true rfl h
  · exact iff_of_false (by decide) h

theorem toLex_lt_iff {major minor : ℕ} :
    toLex (6, 0) < toLex (major, minor) ↔ 6 ≤ major ∧ ¬ (major = 6 ∧ minor = 0) := by
  rw [Prod.Lex.toLex_lt_toLex]
  omega

/-- **The tuning is applied to exactly the versions above 6.0, except where the major version has
several digits of which the first is less than six.** -/
theorem tunes_iff :
    (applyClockTuning 0 os = some [removeBcdUseplatformclock] ↔
      toLex (6, 0) < toLex (os.dwMajorVersion, os.dwMinorVersion)) ↔
    os.dwMajorVersion < 10 ∨ 6 ≤ leadingDigit os.dwMajorVersion := by
  rw [tunes_iff_numbers, toLex_lt_iff]
  rcases Nat.lt_or_ge os.dwMajorVersion 10 with h | h
  · have hlead : leadingDigit os.dwMajorVersion = os.dwMajorVersion := by
      rw [leadingDigit, if_pos h]
    rw [hlead]
    exact iff_of_true Iff.rfl (.inl h)
  · have hne : ¬ (os.dwMajorVersion = 6 ∧ os.dwMinorVersion = 0) := by omega
    rw [and_iff_left hne, and_iff_left hne, or_iff_right (Nat.not_lt.mpr h)]
    exact iff_true_right (by omega)

end

/-- Windows 10 is above 6.0, but `'10'` is not above `'6'`. -/
theorem not_tunes :
    ¬ (applyClockTuning 0 ⟨10, 0, 19045, 1⟩ = some [removeBcdUseplatformclock] ↔
      toLex (6, 0) < toLex (10, 0)) := by
  have hnone : applyClockTuning 0 ⟨10, 0, 19045, 1⟩ = some [] := by
    rw [applyClockTuning_eq, if_neg (by simp [leadingDigit])]
  rw [hnone]
  exact fun h ↦ absurd (h.mpr (by decide)) (by simp)

end GuestAgent
