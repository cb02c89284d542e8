import GuestAgent.Agent.Lifecycle

/-!
# What a hook's name may set off

The host names the event whose hooks are to be run, and `dispatch` looks the name up among the
attributes of the hooks object.  Of the four events, each runs every file of its directory once, in
ascending order: `Ascending` says so without a word about how the directory was listed, and there is
one such order only (`Ascending.unique`), so that neither the listing nor the outcome of a hook can
make a difference.

Any other name is to be answered with `UnknownHookError`.  But the object has attributes of its own
that are no events, and more that every object has; a name for which the lookup finds one of them
that can be called is called, and one that is not ASCII raises in the lookup itself.
`dispatches_iff` says that all other names are treated as they should be.
-/

set_option autoImplicit false

namespace GuestAgent

open Effect Effect.Prog AgentM

/-- The name of an event, which is that of its directory. -/
def HookEvent.name : HookEvent → String
  | beforeHibernation => "before_hibernation"
  | afterHibernation => "after_hibernation"
  | beforeMigration => "before_migration"
  | afterMigration => "after_migration"

/-- The units of a string, of whatever kind. -/
def PyStr.units : PyStr → Text
  | str b => b.map UInt8.toNat
  | unicode t => t

/-! ## The order of the hooks -/

instance : IsTrans Bytes (· ≤ ·) := ⟨fun _ _ _ h h' ↦ List.le_trans h h'⟩

instance : Std.Total (α := Bytes) (· ≤ ·) := ⟨List.le_total⟩

/-- Every file of the directory of an event once, in ascending order. -/
def Ascending (event : HookEvent) (files : List Bytes) (paths : List HookPath) : Prop :=
  ∃ names : List Bytes, names.Perm files ∧ names.Pairwise (· ≤ ·) ∧
    paths = names.map fun f ↦ ⟨event, some f⟩

/-- The order in which the directory is listed makes no difference. -/
theorem Ascending.unique {event : HookEvent} {files files' : List Bytes}
    {paths paths' : List HookPath} (h : Ascending event files paths)
    (h' : Ascending event files' paths') (hperm : files.Perm files') : paths = paths' := by
  obtain ⟨names, hnames, hsorted, rfl⟩ := h
  obtain ⟨names', hnames', hsorted', rfl⟩ := h'
  have heq : names = names' :=
    List.Perm.eq_of_pairwise (fun _ _ _ _ ↦ List.le_antisymm) hsorted hsorted'
      ((hnames.trans hperm).trans hnames'.symm)
  rw [heq]

theorem ascending_sortedHooks (event : HookEvent) (files : List Bytes) :
    Ascending event files (sortedHooks event files) :=
  ⟨_, List.perm_insertionSort _ _, List.pairwise_insertionSort _ _, rfl⟩

/-! ## The lookup -/

/-- The name can be looked up, and stands for no attribute that can be called other than an event's
method. -/
def Resolvable (hook : PyStr) : Prop :=
  (∀ t, hook = .unicode t → t.all (· < 128)) ∧
    hookAttribute hook.units ≠ some .needsArgs ∧ hookAttribute hook.units ≠ some .method

theorem ascii_hookAttributes :
    ∀ p ∈ hookAttributes, (ascii p.1).all (· < 128) ∧ (ascii p.1).map UInt8.toNat = u p.1 := by
  decide

theorem event_mem_hookAttributes (e : HookEvent) : (e.name, .event e) ∈ hookAttributes := by
  cases e <;> decide

theorem name_of_mem_hookAttributes (e : HookEvent) :
    ∀ p ∈ hookAttributes, p.2 = .event e → p.1 = e.name := by
  cases e <;> decide

theorem eq_key_iff {hook : PyStr} {p : String × HookAttr} (hp : p ∈ hookAttributes) :
    hook.eq (key p.1) ↔ hook.units = u p.1 := by
  obtain ⟨hascii, hmap⟩ := ascii_hookAttributes p hp
  rw [key, ← hmap]
  cases hook with
  | str b =>
    have hinj : Function.Injective (List.map UInt8.toNat) :=
      Function.Injective.list_map fun _ _ h ↦ UInt8.toNat_inj.mp h
    rw [PyStr.eq, beq_iff_eq]
    exact hinj.eq_iff.symm
  | unicode t =>
    rw [PyStr.eq, hascii, Bool.true_and, beq_iff_eq]
    exact eq_comm

theorem hookAttribute_event_iff {hook : PyStr} {e : HookEvent} :
    hookAttribute hook.units = some (.event e) ↔ hook.eq (key e.name) := by
  rw [eq_key_iff (event_mem_hookAttributes e)]
  constructor
  · intro h
    obtain ⟨p, hfind, hp⟩ := Option.map_eq_some_iff.mp h
    have hname := name_of_mem_hookAttributes e p (List.mem_of_find?_eq_some hfind) hp
    have hunits := List.find?_some hfind
    rw [beq_iff_eq, hname] at hunits
    exact hunits.symm
  · intro h
    rw [h]
    cases e <;> decide

/-- An event's name is ASCII. -/
theorem Resolvable.of_event {hook : PyStr} {e : HookEvent} (h : hook.eq (key e.name)) :
    Resolvable hook := by
  have hattr := hookAttribute_event_iff.mpr h
  refine ⟨?_, by rw [hattr]; nofun, by rw [hattr]; nofun⟩
  rintro t rfl
  have hunits := (eq_key_iff (event_mem_hookAttributes e)).mp h
  change t = u e.name at hunits
  rw [hunits]
  cases e <;> decide

theorem getattrHook_str {hook : PyStr} (h : ∀ t, hook = .unicode t → t.all (· < 128)) :
    getattrHook (.str hook) = .ok (hookAttribute hook.units) := by
  cases hook with
  | str b => rfl
  | unicode t => exact if_pos (h t rfl)

/-! ## Running the hooks -/

section Run

variable (p : Platform) (env : Env)

theorem executed_execute (path : HookPath) (s : AgentState) :
    ((execute path).run (handle p env) s).2.executed = s.executed ++ [path] := by
  rw [execute, run_bind_ok (run_popen ..)]
  cases env.popen path <;> rfl

theorem executed_runHook (path : HookPath) (s : AgentState) :
    ((runHook path).run (handle p env) s).2.executed = s.executed ++ [path] := by
  rw [runHook, run_bind_ok (run_log ..)]
  have ht := executed_execute p env path { s with records := s.records ++ [.attemptingHook path] }
  obtain ⟨⟨retval, out, err⟩, t, hrun, -⟩ := run_execute p env path
    { s with records := s.records ++ [.attemptingHook path] }
  rw [hrun] at ht
  rw [run_bind_ok hrun]
  dsimp only
  split <;> exact ht

/-- Every hook is executed, whatever becomes of those before it. -/
theorem executed_runAll (paths : List HookPath) (s : AgentState) :
    ((runAll paths).run (handle p env) s).2.executed = s.executed ++ paths := by
  induction paths generalizing s with
  | nil => exact (List.append_nil _).symm
  | cons path paths ih =>
    obtain ⟨t, hrun, -⟩ := run_runHook p env path s
    have ht := executed_runHook p env path s
    rw [hrun] at ht
    rw [runAll, run_bind_ok hrun, ih, ht, List.append_assoc, List.singleton_append]

theorem run_runHooks (e : HookEvent) (files : List Bytes) (h : env.listdir e = some files)
    (s : AgentState) : ∃ t, (runHooks e).run (handle p env) s = (.ok (), t) ∧
      t.executed = s.executed ++ sortedHooks e files := by
  obtain ⟨t, hrun, -⟩ := run_runAll p env (sortedHooks e files) s
  have ht := executed_runAll p env (sortedHooks e files) s
  rw [hrun] at ht
  refine ⟨t, ?_, ht⟩
  rw [runHooks, findHooks, run_bind, run_bind, run_listdir, h]
  exact hrun

end Run

/-- What `dispatch` is to do, where `files` are in the directories: run the hooks of an event in
order, and for any other name raise `UnknownHookError` and run none. -/
def Dispatches (files : HookEvent → List Bytes) (hook : PyStr) (s : AgentState) :
    Except PyExn Unit × AgentState → Prop
  | (out, t) =>
    (∃ e : HookEvent, hook.eq (key e.name) ∧ out = .ok () ∧
      ∃ paths, Ascending e (files e) paths ∧ t.executed = s.executed ++ paths) ∨
    (∀ e : HookEvent, hook.eq (key e.name) = false) ∧ out = .error (unknownHook (.str hook)) ∧
      t.executed = s.executed

/-- **`dispatch` does what it is to do exactly for the names that resolve.** -/
theorem dispatches_iff (p : Platform) (env : Env) (files : HookEvent → List Bytes) (hook : PyStr)
    (s : AgentState) :
    Dispatches files hook s ((dispatch (.str hook)).run
        (handle p { env with listdir := fun e ↦ some (files e) }) s) ↔ Resolvable hook := by
  have hnot : (∀ e, hookAttribute hook.units ≠ some (.event e)) →
      ∀ e : HookEvent, hook.eq (key e.name) = false := fun hne e ↦
    Bool.eq_false_iff.mpr fun heq ↦ hne e (hookAttribute_event_iff.mpr heq)
  -- an event returns and any other name raises `UnknownHookError`, or it has been treated wrongly
  have hwrong : ∀ {out : Except PyExn Unit} {t : AgentState},
      (∀ e, hookAttribute hook.units ≠ some (.event e)) → out ≠ .error (unknownHook (.str hook)) →
      ¬ Dispatches files hook s (out, t) := by
    rintro out t hne hout (⟨e, heq, -⟩ | ⟨-, hraised, -⟩)
    · exact hne e (hookAttribute_event_iff.mpr heq)
    · exact hout hraised
  by_cases hascii : ∀ t, hook = .unicode t → t.all (· < 128)
  · have hget := getattrHook_str hascii
    rcases hattr : hookAttribute hook.units with _ | (e | _ | _ | _) <;> rw [hattr] at hget <;>
      rw [dispatch, hget, run_bind_ok (run_ofExcept ..)] <;> dsimp only
    · refine iff_of_true (.inr ⟨hnot (by simp [hattr]), rfl, rfl⟩) ⟨hascii, ?_⟩
      simp [hattr]
    · have heq := hookAttribute_event_iff.mp hattr
      obtain ⟨t, hrun, ht⟩ := run_runHooks p { env with listdir := fun e ↦ some (files e) } e
        (files e) rfl s
      rw [hrun]
      exact iff_of_true (.inl ⟨e, heq, rfl, _, ascending_sortedHooks e (files e), ht⟩)
        (.of_event heq)
    · refine iff_of_false (hwrong (by simp [hattr]) (by simp)) fun h ↦ ?_
      exact h.2.2 hattr
    · refine iff_of_false (hwrong (by simp [hattr]) ?_) fun h ↦ h.2.1 hattr
      cases hook <;> simp [unknownHook]
    · refine iff_of_true (.inr ⟨hnot (by simp [hattr]), rfl, rfl⟩) ⟨hascii, ?_⟩
      simp [hattr]
  · refine iff_of_false ?_ fun h ↦ hascii h.1
    have hget : getattrHook (.str hook) = .error .unicodeError := by
      cases hook with
      | str b => exact absurd (fun t h ↦ by cases h) hascii
      | unicode t =>
        refine if_neg fun h ↦ hascii ?_
        rintro _ ⟨⟩
        exact h
    rw [dispatch, hget]
    refine hwrong (fun e heq ↦ hascii ?_) ?_
    · exact (Resolvable.of_event (hookAttribute_event_iff.mp heq)).1
    · cases hook <;> simp [unknownHook]

/-- The name of a helper method, which needs an argument. -/
theorem not_dispatches :
    ¬ Dispatches (fun _ ↦ []) (.unicode (u "_run")) System.init.agent
      ((dispatch (.ofString "_run")).run
        (handle .linux { Env.idle with listdir := fun _ ↦ some [] }) System.init.agent) := by
  rintro (⟨e, heq, -⟩ | ⟨-, hraised, -⟩)
  · cases e <;> cases heq
  · cases hraised

end GuestAgent
