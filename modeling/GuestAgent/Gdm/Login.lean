import GuestAgent.Library.Transition
import GuestAgent.Python.Object

/-!
# The token of the greeter extension

The plugin of the display manager is told a token by `UserAuthenticated`, and gives it to PAM, which
asks `Token?` once the greeter has chosen the service of the plugin.  If the greeter does not choose
it at once, the session is cancelled, and `select_when_ready` defers the login until the next
`set_ready`.

The flag is of use only while the token is stored.  They are set together, but `reset` forgets the
token and keeps the flag; so does an answer of the second plugin, once it has been given.  And a
session that is cancelled is reset, so that the token is gone when the login it is for is resumed.
`always_safe_iff` says which runs of the callbacks avoid that, and `not_always_safe` is one in which
`Token?` is answered with `NULL`.

The plugin calls the greeter, and the greeter may call it back before it returns.  `Frame` is where
the plugin goes on after that, and the greeter returns from its innermost call first.
-/

set_option autoImplicit false

namespace GuestAgent.Gdm

open Transition

/-! ## The callbacks -/

/-- The two plugins, `gdm-plugin` and `gdm2-plugin`. -/
inductive Plugin where
  | gdm | gdm2
  deriving DecidableEq, Repr

/-- What the greeter has been called for. -/
inductive Frame where
  /-- `choose_user` in `on_user_authenticated`. -/
  | choosing
  /-- `cancel` in `on_user_authenticated`. -/
  | cancelling
  /-- `choose_user` in `set_ready`. -/
  | selecting
  /-- `answer` in `request_answer` of the second plugin. -/
  | answering
  deriving DecidableEq, Repr

/-- A `GdmOVirtCredExtension`, as far as a login goes.  Nothing reads the last three fields. -/
structure Extension where
  token : Option Bytes
  selectWhenReady : Bool
  /-- `cred_proxy` is not `NULL`, and `UserAuthenticated` is connected. -/
  credProxy : Bool
  /-- The calls of the greeter that have not returned, innermost first. -/
  frames : List Frame
  /-- The answers the greeter was given. -/
  answers : List (Option Bytes)
  /-- The token of the last `UserAuthenticated`. -/
  last : Option Bytes
  /-- `set_ready` has resumed a deferred login, and since then it was neither answered nor reset. -/
  resumed : Bool
  deriving DecidableEq, Repr

namespace Extension

/-- The extension when it has been created. -/
def init : Extension where
  token := none
  selectWhenReady := false
  credProxy := false
  frames := []
  answers := []
  last := none
  resumed := false

/-- `on_user_authenticated`, until it calls the greeter. -/
def onUserAuthenticated (s : Extension) (token : Option Bytes) : Extension :=
  match token with
  | none => s
  | some token =>
    -- `g_strdup` of a string is not `NULL`: the branch behind it is never taken.
    { s with token := some token, last := some token, frames := .choosing :: s.frames }

/-- `gdm_ovirtcred_extension_reset`. -/
def reset (s : Extension) : Extension := { s with token := none, resumed := false }

/-- `gdm_ovirtcred_extension_set_ready`, until it calls the greeter.  `connects` says whether
`ovirtcred_server_start` gets a proxy. -/
def setReady (s : Extension) (connects : Bool) : Extension :=
  let s := if s.credProxy then s else { s with credProxy := connects }
  if s.selectWhenReady then { s with frames := .selecting :: s.frames, resumed := true } else s

/-- `gdm_ovirtcred_extension_request_answer` of the second plugin, until it calls the greeter with a
token. -/
def requestAnswer (s : Extension) : Extension :=
  match s.token with
  | none => { s with answers := s.answers ++ [none], resumed := false }
  | some token =>
    { s with
      answers := s.answers ++ [some token]
      frames := .answering :: s.frames
      resumed := false }

/-- What comes of the question `Token?`. -/
def answer (p : Plugin) (s : Extension) : Extension :=
  match p with
  | .gdm => { s with answers := s.answers ++ [s.token], resumed := false }
  | .gdm2 => if s.token = none then { s with resumed := false } else s.requestAnswer

/-- `gdm_ovirtcred_extension_ask_question`. -/
def askQuestion (p : Plugin) (s : Extension) (message : Bytes) : Extension :=
  if message ≠ ascii "Token?" then s else s.answer p

/-- `gdm_ovirtcred_extension_ask_secret`. -/
def askSecret (p : Plugin) (s : Extension) (message : Bytes) : Extension :=
  if message ≠ ascii "Token?" then s else s.answer p

/-- The greeter returns from its innermost call, and the function that has called it goes on. -/
def returned (s : Extension) (ok : Bool) : Extension :=
  match s.frames with
  | [] => s
  | .choosing :: frames => { s with frames := if ok then frames else .cancelling :: frames }
  | .cancelling :: frames => { s with frames := frames, selectWhenReady := true }
  | .selecting :: frames =>
    { s with frames := frames, selectWhenReady := if ok then false else s.selectWhenReady }
  | .answering :: frames => { s with frames := frames, token := none }

end Extension

/-- What happens next. -/
inductive Event where
  | userAuthenticated (token : Option Bytes)
  | reset
  | setReady (connects : Bool)
  | askQuestion (message : Bytes)
  | askSecret (message : Bytes)
  /-- The greeter of the second plugin asks for an answer of its own accord. -/
  | requestAnswer
  /-- The greeter returns, with what it has to say to `choose_user`. -/
  | returned (ok : Bool)
  deriving DecidableEq, Repr

namespace Extension

def step (p : Plugin) (s : Extension) : Event → Extension
  | .userAuthenticated token => if s.credProxy then s.onUserAuthenticated token else s
  | .reset => s.reset
  | .setReady connects => s.setReady connects
  | .askQuestion message => s.askQuestion p message
  | .askSecret message => s.askSecret p message
  | .requestAnswer => if p = .gdm2 then s.requestAnswer else s
  | .returned ok => s.returned ok

/-! ## What a deferred login needs -/

/-- The token is stored while the flag is set; and `Token?` of a login that `set_ready` has resumed
is answered with the token of the last `UserAuthenticated`. -/
structure Safe (p : Plugin) (s : Extension) : Prop where
  token : s.selectWhenReady = true → s.token ≠ none
  answer : s.resumed = true →
    s.last ≠ none ∧ (s.answer p).answers = s.answers ++ [s.last]

/-- Nothing is done in this step that makes the token of a deferred login go missing. -/
def Careful (s : Extension) : Event → Prop
  | .reset => s.selectWhenReady = false
  | .returned _ =>
    (s.frames.head? = some .cancelling → s.token ≠ none) ∧
      (s.frames.head? = some .answering → s.selectWhenReady = false ∧ s.resumed = false)
  | _ => True

/-! ## One step -/

/-- The token that is stored is the last one. -/
def Recent (s : Extension) : Prop := s.token = none ∨ s.token = s.last

/-- A login is deferred or has been resumed. -/
def Pending (s : Extension) : Prop := s.selectWhenReady = true ∨ s.resumed = true

/-- There is a token if there is a login for it. -/
def Stored (s : Extension) : Prop := s.Pending → s.token ≠ none

section Steps

variable {p : Plugin} {s t : Extension}

/-- An extension that has a token answers with it. -/
theorem answers_answer {token : Bytes} (h : s.token = some token) :
    (s.answer p).answers = s.answers ++ [some token] := by
  cases p with
  | gdm => rw [answer, h]
  | gdm2 => rw [answer, if_neg (by simp [h]), requestAnswer, h]

/-- One that has none does not. -/
theorem answers_answer_ne {token : Bytes} (h : s.token = none) :
    (s.answer p).answers ≠ s.answers ++ [some token] := by
  cases p with
  | gdm => simp [answer, h]
  | gdm2 => simp [answer, h]

theorem safe_iff (hs : s.Recent) : Safe p s ↔ s.Stored := by
  constructor
  · rintro ⟨htoken, hanswer⟩ (hflag | hresumed)
    · exact htoken hflag
    · obtain ⟨hlast, heq⟩ := hanswer hresumed
      obtain ⟨last, hsome⟩ := Option.ne_none_iff_exists'.mp hlast
      rw [hsome] at heq
      exact fun hnone ↦ answers_answer_ne hnone heq
  · intro h
    refine ⟨fun hflag ↦ h (.inl hflag), fun hresumed ↦ ?_⟩
    obtain ⟨token, hsome⟩ := Option.ne_none_iff_exists'.mp (h (.inr hresumed))
    have hlast : s.last = some token := by
      rcases hs with hnone | hlast
      · exact absurd (hnone.symm.trans hsome) nofun
      · exact hlast.symm.trans hsome
    rw [hlast]
    exact ⟨nofun, answers_answer hsome⟩

/-- What the tokens are is left alone, and no login begins. -/
structure Calm (s t : Extension) : Prop where
  token : t.token = s.token
  last : t.last = s.last
  pending : t.Pending → s.Pending

theorem Calm.stored (h : s.Calm t) (hs : s.Stored) : t.Stored :=
  fun hpending ↦ h.token ▸ hs (h.pending hpending)

theorem Calm.recent (h : s.Calm t) (hs : s.Recent) : t.Recent := by
  rwa [Recent, h.token, h.last]

theorem Calm.refl (s : Extension) : s.Calm s := ⟨rfl, rfl, id⟩

theorem calm_setReady (connects : Bool) : s.Calm (s.setReady connects) := by
  rw [setReady]
  by_cases hflag : s.selectWhenReady = true
  · split <;> exact ⟨rfl, rfl, fun _ ↦ .inl hflag⟩
  · split
    · exact .refl s
    · exact ⟨rfl, rfl, id⟩

theorem calm_requestAnswer : s.Calm s.requestAnswer := by
  rw [requestAnswer]
  split <;> exact ⟨rfl, rfl, fun h ↦ .inl (h.resolve_right nofun)⟩

theorem calm_answer (p : Plugin) : s.Calm (s.answer p) := by
  cases p with
  | gdm => exact ⟨rfl, rfl, fun h ↦ .inl (h.resolve_right nofun)⟩
  | gdm2 =>
    rw [answer]
    split
    · exact ⟨rfl, rfl, fun h ↦ .inl (h.resolve_right nofun)⟩
    · exact calm_requestAnswer

theorem calm_askQuestion (p : Plugin) (message : Bytes) : s.Calm (s.askQuestion p message) := by
  rw [askQuestion]
  split
  · exact .refl s
  · exact calm_answer p

theorem calm_askSecret (p : Plugin) (message : Bytes) : s.Calm (s.askSecret p message) :=
  calm_askQuestion p message

/-- The greeter returns: only `cancel` and `answer` are to be careful about. -/
theorem stored_returned_iff (hs : s.Stored) (ok : Bool) :
    (s.returned ok).Stored ↔ s.Careful (.returned ok) := by
  rw [returned, Careful]
  cases hframes : s.frames with
  | nil => exact iff_of_true hs ⟨nofun, nofun⟩
  | cons frame frames =>
    cases frame with
    | choosing => exact iff_of_true hs ⟨nofun, nofun⟩
    | cancelling => exact ⟨fun h ↦ ⟨fun _ ↦ h (.inl rfl), nofun⟩, fun h _ ↦ h.1 rfl⟩
    | selecting =>
      refine iff_of_true (fun hpending ↦ hs ?_) ⟨nofun, nofun⟩
      cases ok with
      | false => exact hpending
      | true => exact .inr (hpending.resolve_left nofun)
    | answering =>
      constructor
      · intro h
        have hpending : ¬ s.Pending := fun hpending ↦ h hpending rfl
        rw [Pending, not_or, Bool.not_eq_true, Bool.not_eq_true] at hpending
        exact ⟨nofun, fun _ ↦ hpending⟩
      · rintro ⟨-, h⟩ hpending
        obtain ⟨hflag, hresumed⟩ := h rfl
        rcases hpending with hpending | hpending
        · exact absurd (hflag.symm.trans hpending) nofun
        · exact absurd (hresumed.symm.trans hpending) nofun

/-- **One callback** leaves a login its token exactly when it is careful. -/
theorem stored_step_iff (hs : s.Stored) (e : Event) : (s.step p e).Stored ↔ s.Careful e := by
  cases e with
  | userAuthenticated token =>
    refine iff_of_true ?_ trivial
    rw [step]
    split
    · cases token with
      | none => exact hs
      | some token => exact fun _ ↦ nofun
    · exact hs
  | reset =>
    constructor
    · intro h
      exact Bool.eq_false_iff.mpr fun hflag ↦ h (.inl hflag) rfl
    · rintro (hflag : s.selectWhenReady = false) (h | h)
      · exact absurd (hflag.symm.trans h) nofun
      · cases h
  | setReady connects => exact iff_of_true ((calm_setReady connects).stored hs) trivial
  | askQuestion message => exact iff_of_true ((calm_askQuestion p message).stored hs) trivial
  | askSecret message => exact iff_of_true ((calm_askSecret p message).stored hs) trivial
  | requestAnswer =>
    refine iff_of_true ?_ trivial
    rw [step]
    split
    · exact calm_requestAnswer.stored hs
    · exact hs
  | returned ok => exact stored_returned_iff hs ok

/-- What is stored is never an old token. -/
theorem Recent.step (hs : s.Recent) (p : Plugin) (e : Event) : (s.step p e).Recent := by
  cases e with
  | userAuthenticated token =>
    rw [Extension.step]
    split
    · cases token with
      | none => exact hs
      | some token => exact .inr rfl
    · exact hs
  | reset => exact .inl rfl
  | setReady connects => exact (calm_setReady connects).recent hs
  | askQuestion message => exact (calm_askQuestion p message).recent hs
  | askSecret message => exact (calm_askSecret p message).recent hs
  | requestAnswer =>
    rw [Extension.step]
    split
    · exact calm_requestAnswer.recent hs
    · exact hs
  | returned ok =>
    rw [Extension.step, returned]
    split
    · exact hs
    · exact hs
    · exact hs
    · exact hs
    · exact .inl rfl

end Steps

/-! ## Every run -/

/-- **The token of a deferred login is there, and is what `Token?` is answered with**, in a run of
either plugin exactly when every step of it is careful. -/
theorem always_safe_iff (p : Plugin) (events : List Event) :
    Always (step p) (Safe p) init events ↔ Each (step p) Careful init events := by
  have hrecent : init.Recent := .inl rfl
  have hsafe : Safe p init := (safe_iff hrecent).mpr nofun
  refine always_iff_each_of_inv Recent (fun s e hs hI ↦ ?_) (fun s e _ hI _ ↦ hI.step p e)
    hsafe hrecent events
  rw [safe_iff (hI.step p e)]
  exact stored_step_iff ((safe_iff hI).mp hs) e

/-- The session is reset when it is cancelled. -/
theorem not_always_safe : ¬ Always (step .gdm) (Safe .gdm) init
    [.setReady true, .userAuthenticated (some (ascii "123456")), .returned false, .reset,
      .returned true, .setReady true, .returned true, .askSecret (ascii "Token?")] := by
  rintro ⟨-, -, -, -, -, h, -⟩
  exact h.token rfl rfl

end Extension

end GuestAgent.Gdm
