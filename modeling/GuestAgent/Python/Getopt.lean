import GuestAgent.Python.Object

/-!
# The command line

`getopt.getopt` of the standard library, by which the agent reads its command line.  Short options
may be written together in one argument, and their value in the same argument or in the next one; a
long option may be shortened as long as it is clear which one is meant.  What is not an option ends
the options, and so does `--`.

`declared_of_getopt` says that only options are reported that were asked for.
-/

set_option autoImplicit false

namespace GuestAgent

/-- `getopt.GetoptError`. -/
structure GetoptError where
  msg : Bytes
  opt : Bytes
  deriving DecidableEq, Repr

/-- An option, with its value. -/
abbrev Opt := Bytes × Bytes

namespace Getopt

def dash : UInt8 := 0x2D

def colon : UInt8 := 0x3A

def equals : UInt8 := 0x3D

/-- `short_has_arg`. -/
def shortHasArg (opt : UInt8) : Bytes → Except GetoptError Bool
  | [] => .error ⟨ascii "option -" ++ [opt] ++ ascii " not recognized", [opt]⟩
  | c :: shortopts =>
    if opt = c ∧ c ≠ colon then .ok (shortopts.head? = some colon)
    else shortHasArg opt shortopts

/-- Add an option that has a value, which is the next argument if there is none in its own. -/
def addWithValue (opts : List Opt) (name : Bytes) (optarg : Option Bytes) (missing : GetoptError)
    (args : List Bytes) : Except GetoptError (List Opt × List Bytes) :=
  match optarg, args with
  | some value, args => .ok (opts ++ [(name, value)], args)
  | none, value :: args => .ok (opts ++ [(name, value)], args)
  | none, [] => .error missing

/-- `do_shorts`. -/
def doShorts (shortopts : Bytes) (opts : List Opt) (optstring : Bytes) (args : List Bytes) :
    Except GetoptError (List Opt × List Bytes) :=
  match optstring with
  | [] => .ok (opts, args)
  | opt :: optstring =>
    match shortHasArg opt shortopts with
    | .error e => .error e
    | .ok true =>
      addWithValue opts [dash, opt] (if optstring = [] then none else some optstring)
        ⟨ascii "option -" ++ [opt] ++ ascii " requires argument", [opt]⟩ args
    | .ok false => doShorts shortopts (opts ++ [([dash, opt], [])]) optstring args

/-- `long_has_args`. -/
def longHasArgs (opt : Bytes) (longopts : List Bytes) : Except GetoptError (Bool × Bytes) :=
  let possibilities := longopts.filter (opt <+: ·)
  if possibilities.contains opt then .ok (false, opt)
  else if possibilities.contains (opt ++ [equals]) then .ok (true, opt)
  else match possibilities with
    | [] => .error ⟨ascii "option --" ++ opt ++ ascii " not recognized", opt⟩
    | [uniqueMatch] =>
      if uniqueMatch.getLast? = some equals then .ok (true, uniqueMatch.dropLast)
      else .ok (false, uniqueMatch)
    | _ :: _ :: _ => .error ⟨ascii "option --" ++ opt ++ ascii " not a unique prefix", opt⟩

/-- The part of a long option behind its `=`. -/
def optarg? (opt : Bytes) : Option Bytes :=
  match opt.dropWhile (· ≠ equals) with
  | [] => none
  | _ :: optarg => some optarg

/-- `do_longs`. -/
def doLongs (longopts : List Bytes) (opts : List Opt) (opt : Bytes) (args : List Bytes) :
    Except GetoptError (List Opt × List Bytes) :=
  match longHasArgs (opt.takeWhile (· ≠ equals)) longopts with
  | .error e => .error e
  | .ok (true, name) =>
    addWithValue opts ([dash, dash] ++ name) (optarg? opt)
      ⟨ascii "option --" ++ name ++ ascii " requires argument", name⟩ args
  | .ok (false, name) =>
    if optarg? opt ≠ none then
      .error ⟨ascii "option --" ++ name ++ ascii " must not have an argument", name⟩
    else .ok (opts ++ [([dash, dash] ++ name, [])], args)

/-- One turn of the loop of `getopt`, with an argument that is an option. -/
def doOption (shortopts : Bytes) (longopts : List Bytes) (opts : List Opt) (arg : Bytes)
    (args : List Bytes) : Except GetoptError (List Opt × List Bytes) :=
  if [dash, dash] <+: arg then doLongs longopts opts (arg.drop 2) args
  else doShorts shortopts opts (arg.drop 1) args

/-! ## What is reported -/

/-- The name is that of an option that was asked for. -/
def Declared (shortopts : Bytes) (longopts : List Bytes) (name : Bytes) : Prop :=
  (∃ c ∈ shortopts, c ≠ colon ∧ name = [dash, c]) ∨
    ∃ longopt ∈ longopts, ∃ opt, (longopt = opt ∨ longopt = opt ++ [equals]) ∧
      name = [dash, dash] ++ opt

/-- What a function of `getopt` reports was asked for, and it takes its arguments from `args`. -/
structure Reads (shortopts : Bytes) (longopts : List Bytes) (opts : List Opt) (args : List Bytes)
    (out : List Opt × List Bytes) : Prop where
  declared : (∀ o ∈ opts, Declared shortopts longopts o.1) →
    ∀ o ∈ out.1, Declared shortopts longopts o.1
  length_le : out.2.length ≤ args.length

section Reads

variable {shortopts : Bytes} {longopts : List Bytes} {opts : List Opt} {arg : Bytes}
variable {args : List Bytes} {out : List Opt × List Bytes}

/-- One more option. -/
theorem reads_append {name value : Bytes} (h : Declared shortopts longopts name)
    {args' : List Bytes} (hlen : args'.length ≤ args.length) :
    Reads shortopts longopts opts args (opts ++ [(name, value)], args') := by
  refine ⟨fun hopts o ho ↦ ?_, hlen⟩
  rcases List.mem_append.mp ho with ho | ho
  · exact hopts o ho
  · rw [List.mem_singleton.mp ho]
    exact h

theorem reads_addWithValue {name : Bytes} (hname : Declared shortopts longopts name)
    {optarg : Option Bytes} {missing : GetoptError}
    (h : addWithValue opts name optarg missing args = .ok out) :
    Reads shortopts longopts opts args out := by
  rw [addWithValue.eq_def] at h
  split at h
  · cases h
    exact reads_append hname le_rfl
  · cases h
    exact reads_append hname (Nat.le_succ _)
  · cases h

theorem mem_of_shortHasArg {opt : UInt8} {hasArg : Bool}
    (h : shortHasArg opt shortopts = .ok hasArg) : opt ∈ shortopts ∧ opt ≠ colon := by
  induction shortopts with
  | nil => cases h
  | cons c shortopts ih =>
    rw [shortHasArg] at h
    split at h
    case isTrue hc =>
      obtain ⟨rfl, hcolon⟩ := hc
      exact ⟨List.mem_cons_self, hcolon⟩
    case isFalse =>
      obtain ⟨hmem, hcolon⟩ := ih h
      exact ⟨List.mem_cons_of_mem c hmem, hcolon⟩

theorem reads_doShorts (h : doShorts shortopts opts arg args = .ok out) :
    Reads shortopts longopts opts args out := by
  induction arg generalizing opts with
  | nil =>
    cases h
    exact ⟨id, le_rfl⟩
  | cons opt optstring ih =>
    rw [doShorts] at h
    cases hshort : shortHasArg opt shortopts with
    | error e =>
      rw [hshort] at h
      cases h
    | ok hasArg =>
      rw [hshort] at h
      obtain ⟨hmem, hcolon⟩ := mem_of_shortHasArg hshort
      have hdeclared : Declared shortopts longopts [dash, opt] := .inl ⟨opt, hmem, hcolon, rfl⟩
      cases hasArg with
      | true => exact reads_addWithValue hdeclared h
      | false =>
        have hone : Reads shortopts longopts opts args (opts ++ [([dash, opt], [])], args) :=
          reads_append hdeclared le_rfl
        have hrest : Reads shortopts longopts (opts ++ [([dash, opt], [])]) args out := ih h
        exact ⟨hrest.declared ∘ hone.declared, hrest.length_le⟩

/-- The name `long_has_args` settles on. -/
theorem declared_of_longHasArgs {opt name : Bytes} {hasArg : Bool}
    (h : longHasArgs opt longopts = .ok (hasArg, name)) :
    Declared shortopts longopts ([dash, dash] ++ name) := by
  have hmem : ∃ longopt ∈ longopts, longopt = name ∨ longopt = name ++ [equals] := by
    simp only [longHasArgs] at h
    split at h
    case isTrue hmem =>
      cases h
      exact ⟨_, List.mem_of_mem_filter (List.contains_iff_mem.mp hmem), .inl rfl⟩
    case isFalse =>
      split at h
      case isTrue hmem =>
        cases h
        exact ⟨_, List.mem_of_mem_filter (List.contains_iff_mem.mp hmem), .inr rfl⟩
      case isFalse =>
        split at h
        case h_1 => cases h
        case h_2 uniqueMatch hunique =>
          have hmem : uniqueMatch ∈ longopts := by
            refine List.mem_of_mem_filter (p := (opt <+: ·)) ?_
            rw [hunique]
            exact List.mem_singleton_self _
          refine ⟨uniqueMatch, hmem, ?_⟩
          split at h
          case isTrue hlast =>
            cases h
            exact .inr (List.dropLast_append_getLast? _ hlast).symm
          case isFalse =>
            cases h
            exact .inl rfl
        case h_3 => cases h
  obtain ⟨longopt, hlongopt, hname⟩ := hmem
  exact .inr ⟨longopt, hlongopt, name, hname, rfl⟩

theorem reads_doLongs (h : doLongs longopts opts arg args = .ok out) :
    Reads shortopts longopts opts args out := by
  rw [doLongs] at h
  split at h
  · cases h
  case h_2 name hlong => exact reads_addWithValue (declared_of_longHasArgs hlong) h
  case h_3 name hlong =>
    split at h
    · cases h
    · cases h
      exact reads_append (declared_of_longHasArgs hlong) le_rfl

theorem reads_doOption (h : doOption shortopts longopts opts arg args = .ok out) :
    Reads shortopts longopts opts args out := by
  rw [doOption] at h
  split at h
  · exact reads_doLongs h
  · exact reads_doShorts h

end Reads

end Getopt

open Getopt

/-- The loop of `getopt.getopt`. -/
def getoptLoop (shortopts : Bytes) (longopts : List Bytes) (opts : List Opt) :
    List Bytes → Except GetoptError (List Opt × List Bytes)
  | [] => .ok (opts, [])
  | arg :: args =>
    if ¬ [dash] <+: arg ∨ arg = [dash] then .ok (opts, arg :: args)
    else if arg = [dash, dash] then .ok (opts, args)
    else match _hopt : doOption shortopts longopts opts arg args with
      | .error e => .error e
      | .ok out => getoptLoop shortopts longopts out.1 out.2
  termination_by args => args.length
  decreasing_by exact Nat.lt_succ_of_le (reads_doOption _hopt).length_le

/-- `getopt.getopt(args, shortopts, longopts)`. -/
def getopt (args : List Bytes) (shortopts : Bytes) (longopts : List Bytes) :
    Except GetoptError (List Opt × List Bytes) := getoptLoop shortopts longopts [] args

theorem declared_of_getoptLoop {shortopts : Bytes} {longopts : List Bytes} {opts : List Opt}
    {args : List Bytes} {out : List Opt × List Bytes}
    (h : getoptLoop shortopts longopts opts args = .ok out)
    (hopts : ∀ o ∈ opts, Declared shortopts longopts o.1) :
    ∀ o ∈ out.1, Declared shortopts longopts o.1 := by
  induction opts, args using getoptLoop.induct shortopts longopts with
  | case1 opts =>
    rw [getoptLoop] at h
    cases h
    exact hopts
  | case2 opts arg args hstop =>
    rw [getoptLoop, if_pos hstop] at h
    cases h
    exact hopts
  | case3 opts args hgo =>
    rw [getoptLoop, if_neg hgo, if_pos rfl] at h
    cases h
    exact hopts
  | case4 opts arg args hgo hlong e he =>
    rw [getoptLoop, if_neg hgo, if_neg hlong] at h
    split at h
    · cases h
    case h_2 next hnext => cases he.symm.trans hnext
  | case5 opts arg args hgo hlong next hnext ih =>
    rw [getoptLoop, if_neg hgo, if_neg hlong] at h
    split at h
    · cases h
    case h_2 next' hnext' =>
      cases hnext.symm.trans hnext'
      exact ih h ((reads_doOption hnext).declared hopts)

/-- **Only options that were asked for are reported.** -/
theorem declared_of_getopt {args : List Bytes} {shortopts : Bytes} {longopts : List Bytes}
    {out : List Opt × List Bytes} (h : getopt args shortopts longopts = .ok out) :
    ∀ o ∈ out.1, Declared shortopts longopts o.1 := declared_of_getoptLoop h nofun

end GuestAgent
