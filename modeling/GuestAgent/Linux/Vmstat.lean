import GuestAgent.Library.Transition
import GuestAgent.Python.ByteString
import Mathlib.Algebra.Field.Rat
import Mathlib.Logic.Function.Basic

/-!
# The paging rates of a Linux guest

`/proc/vmstat` has counters that only grow, and the agent reports how fast: at each collection it
subtracts the values of the previous one and divides by the time that has passed.

The time is that since the clock was last read, which is before the file is opened.  Where anything
goes wrong after that, the next collection divides by the time since the collection that failed, and
subtracts values that are older.  `always_accurate` says that this, and a counter that is read twice
with no time between, is what makes a rate wrong.

`recorded` is not in the code.  It is the history of a counter, the latest value first, each with
the time of its collection, and no function reads it.
-/

set_option autoImplicit false

namespace GuestAgent

open Transition

/-- The counters, by their names in `memStats`. -/
inductive VmField where
  | swap_in | swap_out | pageflt | majflt
  deriving DecidableEq

/-- The names in `/proc/vmstat`. -/
def VmField.ofKey (key : Bytes) : Option VmField :=
  [(ascii "pswpin", swap_in), (ascii "pswpout", swap_out), (ascii "pgfault", pageflt),
    (ascii "pgmajfault", majflt)].lookup key

/-- What there is of one counter. -/
structure Counter where
  prev : Option Int
  cur : Option Int
  /-- The rate in `memStats`. -/
  memStat : Int
  recorded : List (ℚ × Int)

/-- The counters, and the time when the clock was last read. -/
structure VmStat where
  timestampPrev : ℚ
  counter : VmField → Counter

/-- `_init_vmstat` at the time `now`, with the `memStats` of `DataRetriverBase.__init__`. -/
def initVmstat (now : ℚ) : VmStat := ⟨now, fun _ ↦ ⟨none, none, 0, []⟩⟩

/-- `int(x)` of a number, which truncates it toward zero. -/
def truncate (x : ℚ) : Int := x.num.tdiv x.den

/-- `(key, value) = line.strip().split()[0:2]`. -/
def keyValue (line : Bytes) : Except PyExn (Bytes × Bytes) :=
  match (split (strip line)).take 2 with
  | [key, value] => .ok (key, value)
  | _ => .error .valueError

/-- What is done about a line with a counter: the new state, and whether an exception is raised. -/
def Counter.collect (now interval : ℚ) (value : Bytes) (c : Counter) :
    Except PyExn Unit × Counter :=
  let c := { c with prev := c.cur }
  match (PyObj.str (.str value)).toInt with
  | .error e => (.error e, c)
  | .ok n =>
    let c := { c with cur := some n, recorded := (now, n) :: c.recorded }
    let prev := c.prev.getD n
    let c := { c with prev := some prev }
    -- a division by zero raises `ZeroDivisionError`
    if interval = 0 then (.error (.other 0), c)
    else (.ok (), { c with memStat := truncate ((n - prev : Int) / interval) })

/-- The loop of `_get_vmstat`, over the lines that can be read. -/
def collectLines (now interval : ℚ) : List Bytes → VmStat → Except PyExn Unit × VmStat
  | [], s => (.ok (), s)
  | line :: lines, s =>
    match keyValue line with
    | .error e => (.error e, s)
    | .ok (key, value) =>
      match VmField.ofKey key with
      | none => collectLines now interval lines s
      | some f =>
        let (result, c) := (s.counter f).collect now interval value
        let s := { s with counter := Function.update s.counter f c }
        match result with
        | .error e => (.error e, s)
        | .ok () => collectLines now interval lines s

/-- What a collection meets with. -/
structure Collection where
  /-- Does `_get_meminfo` raise? -/
  meminfo : Except PyExn Unit
  /-- The clock. -/
  now : ℚ
  /-- The lines of `/proc/vmstat`, up to where reading fails, or nothing where opening it does. -/
  lines : Option (List Bytes)

/-- `_get_vmstat`. -/
def getVmstat (now : ℚ) (lines : Option (List Bytes)) (s : VmStat) : Except PyExn Unit × VmStat :=
  let interval := now - s.timestampPrev
  let s := { s with timestampPrev := now }
  match lines with
  | none => (.error .osError, s)
  | some lines => collectLines now interval lines s

/-- `getMemoryStats`.  An exception is logged, and the rates there are are returned. -/
def getMemoryStats (s : VmStat) (c : Collection) : VmStat :=
  match c.meminfo with
  | .error _ => s
  | .ok () => (getVmstat c.now c.lines s).2

/-! ## Accuracy -/

/-- A rate is that of the two latest values, and 0 where there are no two. -/
def Counter.Accurate (c : Counter) : Prop :=
  match c.recorded with
  | (t, n) :: (t', n') :: _ => t ≠ t' ∧ c.memStat = truncate ((n - n' : Int) / (t - t'))
  | _ => c.memStat = 0

instance : DecidablePred Counter.Accurate
  | ⟨_, _, memStat, []⟩ | ⟨_, _, memStat, [_]⟩ => inferInstanceAs (Decidable (memStat = 0))
  | ⟨_, _, memStat, (t, n) :: (t', n') :: _⟩ =>
    inferInstanceAs (Decidable (t ≠ t' ∧ memStat = truncate ((n - n' : Int) / (t - t'))))

def VmStat.Accurate (s : VmStat) : Prop := ∀ f, (s.counter f).Accurate

/-- The values in the lines before the first one that is malformed. -/
def readings : List Bytes → List (VmField × Int)
  | [] => []
  | line :: lines =>
    match keyValue line with
    | .error _ => []
    | .ok (key, value) =>
      match VmField.ofKey key with
      | none => readings lines
      | some f =>
        match (PyObj.str (.str value)).toInt with
        | .error _ => []
        | .ok n => (f, n) :: readings lines

/-- The values that are recorded of them: where no time has passed, the first one ends it. -/
def recordings (interval : ℚ) (lines : List Bytes) : List (VmField × Int) :=
  if interval = 0 then (readings lines).take 1 else readings lines

/-- The values a collection records. -/
def Collection.recordings (c : Collection) (s : VmStat) : List (VmField × Int) :=
  match c.meminfo, c.lines with
  | .ok (), some lines => GuestAgent.recordings (c.now - s.timestampPrev) lines
  | _, _ => []

/-- The collection records no counter twice, and the counters it records again have been recorded
at the last reading of the clock, which was at another time. -/
def Fits (s : VmStat) (c : Collection) : Prop :=
  ((c.recordings s).map Prod.fst).Nodup ∧
    ∀ r ∈ c.recordings s, ∀ last ∈ (s.counter r.1).recorded.head?,
      last.1 = s.timestampPrev ∧ c.now ≠ last.1

instance (s : VmStat) (c : Collection) : Decidable (Fits s c) :=
  inferInstanceAs (Decidable (_ ∧ _))

/-! ## One line -/

/-- The current value is the one recorded last, and the rate is accurate. -/
structure Counter.Inv (c : Counter) : Prop where
  cur_eq : c.cur = c.recorded.head?.map Prod.snd
  accurate : c.Accurate

/-- A value that is recorded next can be told from the last one by its time, which is `t`. -/
def Counter.Follows (c : Counter) (t now : ℚ) : Prop :=
  ∀ last ∈ c.recorded.head?, last.1 = t ∧ now ≠ last.1

section Collect

variable {c : Counter} {now interval t : ℚ} {value : Bytes} {n : Int}

/-- A malformed value leaves the rate and what has been recorded. -/
theorem collect_error {e : PyExn} (hvalue : (PyObj.str (.str value)).toInt = .error e) :
    c.collect now interval value = (.error e, { c with prev := c.cur }) := by
  rw [Counter.collect, hvalue]

theorem collect_ok (hvalue : (PyObj.str (.str value)).toInt = .ok n) :
    c.collect now interval value =
      (if interval = 0 then .error (.other 0) else .ok (),
        { prev := some (c.cur.getD n)
          cur := some n
          memStat := if interval = 0 then c.memStat
            else truncate ((n - c.cur.getD n : Int) / interval)
          recorded := (now, n) :: c.recorded }) := by
  rw [Counter.collect, hvalue]
  dsimp only
  split <;> rfl

/-- **Recording a value keeps a counter's rate accurate.** -/
theorem inv_collect (h : c.Inv) (hfollows : c.Follows t now)
    (hvalue : (PyObj.str (.str value)).toInt = .ok n) :
    (c.collect now (now - t) value).2.Inv := by
  obtain ⟨hcur, haccurate⟩ := h
  rw [collect_ok hvalue]
  refine ⟨rfl, ?_⟩
  rw [Counter.Accurate] at haccurate ⊢
  rcases hrecorded : c.recorded with _ | ⟨⟨t', n'⟩, recorded⟩ <;> rw [hrecorded] at haccurate hcur
  · -- the first value
    have hcur : c.cur = none := hcur
    have hzero : ((n - n : Int) : ℚ) / (now - t) = 0 := by simp
    simp only [hcur, Option.getD_none, hzero]
    split
    · exact haccurate
    · rfl
  · have hcur : c.cur = some n' := hcur
    obtain ⟨rfl, hne⟩ := hfollows (t', n') (by rw [hrecorded]; rfl)
    dsimp only
    rw [if_neg (sub_ne_zero.mpr hne), hcur]
    exact ⟨hne, rfl⟩

end Collect

/-! ## One collection -/

def VmStat.Inv (s : VmStat) : Prop := ∀ f, (s.counter f).Inv

theorem VmStat.Inv.update {s : VmStat} (h : s.Inv) (f : VmField) {c : Counter} (hc : c.Inv) :
    VmStat.Inv { s with counter := Function.update s.counter f c } := by
  intro g
  change (Function.update s.counter f c g).Inv
  rcases eq_or_ne g f with rfl | hne
  · rwa [Function.update_self]
  · rw [Function.update_of_ne hne]
    exact h g

section Recordings

variable {interval : ℚ} {line key value : Bytes} {lines : List Bytes} {f : VmField} {n : Int}

theorem recordings_other (hline : keyValue line = .ok (key, value))
    (hkey : VmField.ofKey key = none) : recordings interval (line :: lines) =
      recordings interval lines := by
  simp only [recordings, readings, hline, hkey]

theorem recordings_field (hline : keyValue line = .ok (key, value))
    (hkey : VmField.ofKey key = some f) (hvalue : (PyObj.str (.str value)).toInt = .ok n) :
    recordings interval (line :: lines) =
      (f, n) :: if interval = 0 then [] else recordings interval lines := by
  simp only [recordings, readings, hline, hkey, hvalue]
  split <;> rfl

end Recordings

/-- The loop keeps every rate accurate: a counter is recorded once, so that no line is about one
that has been recorded at this time. -/
theorem inv_collectLines {now t : ℚ} {lines : List Bytes} {s : VmStat} (h : s.Inv)
    (hnodup : ((recordings (now - t) lines).map Prod.fst).Nodup)
    (hfollows : ∀ r ∈ recordings (now - t) lines, (s.counter r.1).Follows t now) :
    (collectLines now (now - t) lines s).2.Inv := by
  induction lines generalizing s with
  | nil => exact h
  | cons line lines ih =>
    rw [collectLines]
    rcases hline : keyValue line with e | ⟨key, value⟩
    · exact h
    · dsimp only
      rcases hkey : VmField.ofKey key with _ | f
      · rw [recordings_other hline hkey] at hnodup hfollows
        exact ih h hnodup hfollows
      · dsimp only
        rcases hvalue : (PyObj.str (.str value)).toInt with e | n
        · rw [collect_error hvalue]
          exact h.update f ⟨(h f).cur_eq, (h f).accurate⟩
        · rw [recordings_field hline hkey hvalue] at hnodup hfollows
          have hinv := h.update f (inv_collect (h f) (hfollows (f, n) List.mem_cons_self) hvalue)
          rw [collect_ok hvalue] at hinv ⊢
          by_cases hzero : now - t = 0
          · rw [if_pos hzero]
            exact hinv
          · rw [if_neg hzero] at hnodup hfollows ⊢
            obtain ⟨hnotMem, hnodup⟩ := List.nodup_cons.mp hnodup
            refine ih hinv hnodup fun r hr ↦ ?_
            have hne : r.1 ≠ f := by
              rintro rfl
              exact hnotMem (List.mem_map.mpr ⟨r, hr, rfl⟩)
            change (Function.update s.counter f _ r.1).Follows t now
            rw [Function.update_of_ne hne]
            exact hfollows r (List.mem_cons_of_mem _ hr)

/-! ## A run -/

theorem inv_getMemoryStats {s : VmStat} {c : Collection} (h : s.Inv) (hfits : Fits s c) :
    (getMemoryStats s c).Inv := by
  obtain ⟨hnodup, hfollows⟩ := hfits
  rw [Collection.recordings] at hnodup hfollows
  rcases hmeminfo : c.meminfo with e | _
  · rw [getMemoryStats, hmeminfo]
    exact h
  · have hstep : getMemoryStats s c = (getVmstat c.now c.lines s).2 := by
      rw [getMemoryStats, hmeminfo]
    rw [hstep]
    rcases hlines : c.lines with _ | lines
    · exact h
    · rw [hmeminfo, hlines] at hnodup hfollows
      exact inv_collectLines h hnodup hfollows

theorem inv_initVmstat (now : ℚ) : (initVmstat now).Inv := fun _ ↦ ⟨rfl, rfl⟩

/-- **The rates are accurate all along a run of collections each of which fits.** -/
theorem always_accurate (now : ℚ) {run : List Collection}
    (h : Each getMemoryStats Fits (initVmstat now) run) :
    Always getMemoryStats VmStat.Accurate (initVmstat now) run :=
  (always_of_each VmStat.Inv (fun _ _ hs hfits ↦ inv_getMemoryStats hs hfits) (inv_initVmstat now)
    h).mono fun _ hs f ↦ (hs f).accurate

/-- `/proc/vmstat` where it has one of the counters, with the value `n`. -/
def pageIns (n : String) : Option (List Bytes) :=
  some [ascii "nr_dirty 12\n", ascii ("pswpin " ++ n ++ "\n")]

theorem always_accurate_twice :
    Always getMemoryStats VmStat.Accurate (initVmstat 0)
      [⟨.ok (), 1, pageIns "100"⟩, ⟨.ok (), 11, pageIns "200"⟩] :=
  always_accurate 0 ⟨by decide +kernel, by decide +kernel, trivial⟩

/-- The second collection fails, and the third one divides by one second instead of eleven. -/
theorem not_always_accurate :
    ¬ Always getMemoryStats VmStat.Accurate (initVmstat 0)
      [⟨.ok (), 1, pageIns "100"⟩, ⟨.ok (), 11, none⟩, ⟨.ok (), 12, pageIns "200"⟩] := by
  intro h
  exact absurd (h.2.2.2 .swap_in) (by decide +kernel)

end GuestAgent
