import GuestAgent.Windows.OVirtCredentials
import GuestAgent.Windows.Pipe

/-!
# What the credential provider remembers

`OVirtCredentials` keeps three strings that are allocated, copied, wiped and freed one by one.  What
they are for is simpler: the provider remembers one account, the last one it was told of, or none.
`remember` is that model, a function on `Option Account`.

`holds_exec` says that the memory of the provider refines it, over any messages and resets, for any
allocator: the fields are copies of the strings of the account, or all of them are `NULL`, and no
access was a fault.  A copy that cannot be made costs the others as well, and the account before.
-/

set_option autoImplicit false

namespace GuestAgent.OVirtCredentials

open CString CHeap Effect Effect.Prog
open CredentialsChannel (Delivery delivery delivery_at deliver notify exists_split_at
  exists_run_deliver_at run_deliver_of_nil run_deliver_of_notMem exists_run_free_strings
  exists_run_parse_attempts exists_run_parse_of_fail run_parse_of_fail Received)

/-! ## The model -/

/-- An account to log on with. -/
structure Account where
  userName : Wide
  password : Wide
  domain : Wide
  deriving DecidableEq, Repr

/-- The string that a field is for. -/
def Account.string (a : Account) : FieldName → Wide
  | .wzUserName => a.userName
  | .wzPassword => a.password
  | .wzDomain => a.domain

/-- The size of a copy. -/
abbrev sizeofCopy (w : Wide) : ℕ := sizeofWchar * (w.length + 1)

/-- What the listener is told because of a message, if it is told anything. -/
def StepEnv.hears (env : StepEnv) (dec : Utf8Decoder) (login : Login) : Option Delivery :=
  if env.allocates 0 (2 * (login.username.length + 1)) ∧
      env.allocates 1 (2 * (login.password.length + 1)) ∧ env.listening then
    delivery (dec.decode login.username) (dec.decode login.password)
  else none

/-- What is remembered of what was told: all of it, or nothing. -/
def StepEnv.account (env : StepEnv) (d : Delivery) : Option Account :=
  (d.domain <|> env.computerName.map (·.name)).bind fun domain ↦
    if env.allocates 2 (sizeofCopy d.username) ∧ env.allocates 3 (sizeofCopy d.password) ∧
        env.allocates 4 (sizeofCopy domain) then
      some ⟨d.username, d.password, domain⟩
    else none

/-- What is remembered after a step. -/
def remember (dec : Utf8Decoder) (a : Option Account) : Step → Option Account
  | .message env login => (env.hears dec login).elim a env.account
  | .reset _ => none

/-- What is remembered after some steps. -/
def remembered (dec : Utf8Decoder) (steps : List Step) : Option Account :=
  steps.foldl (remember dec) none

/-- A field is `NULL`, or the start of a copy. -/
def HoldsField (s : State) (n : FieldName) : Option Wide → Prop
  | none => s.rest n = none
  | some w => (∀ c ∈ w, c ≠ 0) ∧ w.length < wideSpace ∧
      ∃ i, s.rest n = some ⟨i, 0⟩ ∧ i < s.heap.next ∧ s.heap.Full i n.owner (wideBytes (w ++ [0]))

/-- Every field holds its string. -/
def Copied (s : State) (c : FieldName → Option Wide) : Prop := ∀ n, HoldsField s n (c n)

/-- The strings of an account, or none. -/
def strings (a : Option Account) (n : FieldName) : Option Wide := a.map (·.string n)

/-- The provider remembers `a`. -/
def Holds (s : State) (a : Option Account) : Prop := Copied s (strings a)

/-! ## The fields -/

section Fields

variable {env : StepEnv} {base k l : ℕ} {s t : State} {n : FieldName} {p : Ptr} {str w : Wide}
variable {c c' : FieldName → Option Wide} {P Q : Method Unit}

/-- What a field points to is known. -/
theorem Copied.exists_eq (h : Copied s c) (hp : s.rest n = some p) :
    ∃ w i, c n = some w ∧ p = ⟨i, 0⟩ ∧ i < s.heap.next ∧ (∀ c ∈ w, c ≠ 0) ∧ w.length < wideSpace ∧
      s.heap.Full i n.owner (wideBytes (w ++ [0])) := by
  have hn := h n
  cases hc : c n with
  | none =>
    rw [hc] at hn
    exact absurd (hn.symm.trans hp) (by simp)
  | some w =>
    rw [hc] at hn
    obtain ⟨hw, hlen, i, hi, hlt, hfull⟩ := hn
    exact ⟨w, i, rfl, Option.some.inj (hp.symm.trans hi), hlt, hw, hlen, hfull⟩

theorem Copied.inv (h : Copied s c) : Inv s := by
  intro n p hp
  obtain ⟨w, i, -, rfl, hlt, hw, hlen, hfull⟩ := h.exists_eq hp
  exact ⟨i, w, rfl, hlt, hw, hlen, hfull⟩

/-- A field is assigned, and what the others point to is as it was. -/
theorem Copied.update (h : Copied s c) (hrest : t.rest = s.rest) (hnext : s.heap.next ≤ t.heap.next)
    (hobj : ∀ n' q, n' ≠ n → s.rest n' = some q → t.heap.object q.object = s.heap.object q.object)
    {q : Option Ptr} {x : Option Wide} (hq : HoldsField (withField t n q) n x) :
    Copied (withField t n q) (Function.update c n x) := by
  intro n'
  by_cases hn : n' = n
  · subst hn
    rwa [Function.update_self]
  · have hfield : (withField t n q).rest n' = s.rest n' := by
      rw [withField, ← hrest]
      exact Function.update_of_ne hn ..
    have hn' := h n'
    rw [Function.update_of_ne hn]
    cases hc : c n' with
    | none =>
      rw [hc] at hn'
      exact hfield.trans hn'
    | some w =>
      rw [hc] at hn'
      obtain ⟨hw, hlen, i, hi, hlt, hfull⟩ := hn'
      refine ⟨hw, hlen, i, hfield.trans hi, hlt.trans_le hnext, ?_⟩
      rw [Heap.Full, Heap.Holds, withField, hobj n' _ hn hi]
      exact hfull

/-- Nothing of what the fields point to is changed. -/
theorem Copied.of_object (h : Copied s c) (hrest : t.rest = s.rest)
    (hnext : s.heap.next ≤ t.heap.next)
    (hobj : ∀ i < s.heap.next, Avoids s i ∨ t.heap.object i = s.heap.object i) : Copied t c := by
  intro n
  have hn := h n
  cases hc : c n with
  | none =>
    rw [hc] at hn
    exact (congrFun hrest n).trans hn
  | some w =>
    rw [hc] at hn
    obtain ⟨hw, hlen, i, hi, hlt, hfull⟩ := hn
    refine ⟨hw, hlen, i, (congrFun hrest n).trans hi, hlt.trans_le hnext, ?_⟩
    rw [Heap.Full, Heap.Holds, (hobj i hlt).resolve_left fun hav ↦ hav n _ hi rfl]
    exact hfull

/-- From `s`, a method ends with the fields as `c` says, after `k` allocations and no fault. -/
def Leaves (env : StepEnv) (base : ℕ) (s : State) (P : Method Unit) (c : FieldName → Option Wide)
    (k : ℕ) : Prop :=
  ∃ t, P.run (env.machine base).handle s = (.ok (), t) ∧ Changes s t ∧ Copied t c ∧
    t.heap.attempts = s.heap.attempts + k ∧ t.heap.faults = s.heap.faults

theorem leaves_return (h : Copied s c) : Leaves env base s (pure ()) c 0 :=
  ⟨s, rfl, .refl s, h, rfl, rfl⟩

theorem Leaves.bind (hP : Leaves env base s P c k)
    (hQ : ∀ t, Changes s t → Copied t c → t.heap.attempts = s.heap.attempts + k →
      Leaves env base t Q c' l) :
    Leaves env base s (P >>= fun _ ↦ Q) c' (k + l) := by
  obtain ⟨t, hrun, hch, hc, hatt, hfaults⟩ := hP
  obtain ⟨u, hrun', hch', hc', hatt', hfaults'⟩ := hQ t hch hc hatt
  exact ⟨u, by rw [run_bind_ok hrun, hrun'], hch.trans hch', hc', by omega, hfaults'.trans hfaults⟩

theorem Leaves.of_read {α : Type} {p : Method α} {x : α} {f : α → Method Unit}
    (hp : p.run (env.machine base).handle s = (.ok x, s)) (hf : Leaves env base s (f x) c k) :
    Leaves env base s (p >>= f) c k := by
  obtain ⟨t, hrun, ht⟩ := hf
  exact ⟨t, by rw [run_bind_ok hp, hrun], ht⟩

theorem update_eq_self (hc : c n = none) : Function.update c n none = c := by
  rw [← hc, Function.update_eq_self]

/-- A field is given up, if it is not `NULL`. -/
theorem leaves_clear (h : Copied s c)
    (hnone : s.rest n = none → P.run (env.machine base).handle s = (.ok (), s))
    (hsome : ∀ i w, s.rest n = some ⟨i, 0⟩ → (∀ c ∈ w, c ≠ 0) → w.length < wideSpace →
      s.heap.Full i n.owner (wideBytes (w ++ [0])) →
      ∃ t r, P.run (env.machine base).handle s = (.ok (), withField t n none) ∧ SameBut i s t ∧
        t.heap.released = s.heap.released ++ [r] ∧ Clean r) :
    Leaves env base s P (Function.update c n none) 0 := by
  cases hp : s.rest n with
  | none =>
    have hn := h n
    cases hc : c n with
    | none =>
      rw [update_eq_self hc]
      exact ⟨s, hnone hp, .refl s, h, rfl, rfl⟩
    | some w =>
      rw [hc] at hn
      obtain ⟨-, -, i, hi, -⟩ := hn
      exact absurd (hp.symm.trans hi) (by simp)
  | some p =>
    obtain ⟨w, i, -, rfl, -, hw, hlen, hfull⟩ := h.exists_eq hp
    obtain ⟨t, r, hrun, hsame, hrel, hclean⟩ := hsome i w hp hw hlen hfull
    refine ⟨_, hrun, (h.inv.cleared hp hsame hrel hclean).1, ?_, hsame.attempts, hsame.faults⟩
    refine h.update hsame.rest hsame.next.ge (fun n' q hne hq ↦ ?_) (Function.update_self ..)
    exact hsame.object _ (h.inv.avoids hp hne hq)

theorem leaves_freeField (h : Copied s c) (hn : n ≠ .wzPassword) :
    Leaves env base s (freeField n) (Function.update c n none) 0 := by
  refine leaves_clear h (fun hp ↦ ?_) fun i w hp _ _ hfull ↦ ?_
  · rw [freeField, run_bind_ok run_getField, hp]
    rfl
  · obtain ⟨t, hrun, hsame, hrel⟩ := exists_run_freeField env base hp hfull
    exact ⟨t, _, hrun, hsame, hrel, fun howner ↦ absurd (FieldName.owner_inj howner) hn⟩

theorem leaves_wipeField (h : Copied s c) :
    Leaves env base s (wipeField n) (Function.update c n none) 0 := by
  refine leaves_clear h (fun hp ↦ ?_) fun i w hp hw hlen hfull ↦ ?_
  · rw [wipeField, run_bind_ok run_getField, hp]
    rfl
  · obtain ⟨t, hrun, hsame, hrel⟩ := exists_run_wipeField env base hp hw hlen hfull
    refine ⟨t, _, hrun, hsame, hrel, fun _ b hb ↦ ?_⟩
    rcases List.mem_append.mp hb with hb | hb
    · exact (List.mem_replicate.mp hb).2
    · simpa [wideBytes] using hb

/-- All the fields are given up. -/
theorem leaves_resetCredentials (env : StepEnv) (base : ℕ) (h : Copied s c) :
    Leaves env base s resetCredentials (fun _ ↦ none) 0 := by
  have hnone : Function.update (Function.update (Function.update c .wzUserName none)
      .wzPassword none) .wzDomain none = fun _ ↦ none := by
    funext n
    cases n <;> simp
  rw [← hnone]
  exact (leaves_freeField h (by decide)).bind fun _ _ h _ ↦
    (leaves_wipeField h).bind fun _ _ h _ ↦ leaves_freeField h (by decide)

/-- A field is assigned a copy, if there is memory for it. -/
theorem leaves_setNew (h : Copied s c) (hstr : ∀ c ∈ str, c ≠ 0) (hlen : str.length < wideSpace)
    (hk : s.heap.attempts = base + k) :
    Leaves env base s (newString n.owner str >>= fun p ↦ setField n p)
      (Function.update c n (if env.allocates k (sizeofCopy str) then some str else none)) 1 := by
  have halloc : (env.machine base).allocates s.heap.attempts (sizeofCopy str) =
      env.allocates k (sizeofCopy str) := by
    rw [hk]
    exact congrArg (env.allocates · _) (Nat.add_sub_cancel_left ..)
  obtain ⟨t, hrun, hch, -⟩ : Behaves env base s
      (newString n.owner str >>= fun p ↦ setField n p) := behaves_setNew h.inv hstr hlen
  rw [← halloc]
  cases hb : (env.machine base).allocates s.heap.attempts (sizeofCopy str) with
  | false =>
    have hrun' : (newString n.owner str >>= fun p ↦ setField n p).run (env.machine base).handle s =
        (.ok (), withField { s with heap := s.heap.tried } n none) := by
      rw [run_bind, newString, run_bind_ok (run_alloc_fail n.owner false hb)]
      rfl
    obtain rfl := (Prod.mk.inj (hrun.symm.trans hrun')).2
    exact ⟨_, hrun', hch, h.update rfl le_rfl (fun _ _ _ _ ↦ rfl) (Function.update_self ..), rfl,
      rfl⟩
  | true =>
    obtain ⟨t', hrun', hnew, hobj, hnext, -, hrest, hatt, hfaults⟩ :=
      exists_run_newString n.owner str hb
    have hset : (newString n.owner str >>= fun p ↦ setField n p).run (env.machine base).handle s =
        (.ok (), withField t' n (some ⟨s.heap.next, 0⟩)) := by
      rw [run_bind_ok hrun']
      rfl
    obtain rfl := (Prod.mk.inj (hrun.symm.trans hset)).2
    refine ⟨_, hset, hch, ?_, hatt, hfaults⟩
    refine h.update hrest (hnext ▸ Nat.le_succ _) (fun n' q _ hq ↦ ?_)
      ⟨hstr, hlen, s.heap.next, Function.update_self .., ?_, hnew⟩
    · obtain ⟨w, i, -, rfl, hi, -⟩ := h.exists_eq hq
      exact hobj i hi
    · exact (Nat.lt_succ_self _).trans_eq hnext.symm

theorem leaves_dupField (h : Copied s c) (hp : Readable s p str) (hk : s.heap.attempts = base + k) :
    Leaves env base s (dupField n p)
      (Function.update c n (if env.allocates k (sizeofCopy str) then some str else none)) 1 :=
  .of_read hp.run_scanWide (leaves_setNew h hp.ne_zero hp.length_lt hk)

/-! ## A login -/

/-- The domain that is meant by a pointer, or by `NULL`. -/
def Means (env : StepEnv) (s : State) : Option Ptr → Option Wide → Prop
  | some p, some w => Readable s p w
  | none, x => x = env.computerName.map (·.name)
  | some _, none => False

theorem Means.changes {szDomain : Option Ptr} {x : Option Wide} (h : Means env s szDomain x)
    (ht : Changes s t) : Means env t szDomain x := by
  cases szDomain with
  | none => exact h
  | some p =>
    cases x with
    | none => exact h
    | some w => exact Readable.changes h ht

theorem leaves_setDomain {szDomain : Option Ptr} {x : Option Wide} (h : Copied s c)
    (hx : Means env s szDomain x) (hc : c .wzDomain = none) (hk : s.heap.attempts = base + k) :
    ∃ l, Leaves env base s (setDomain szDomain) (Function.update c .wzDomain
      (x.bind fun w ↦ if env.allocates k (sizeofCopy w) then some w else none)) l := by
  cases szDomain with
  | some p =>
    cases x with
    | none => exact hx.elim
    | some w => exact ⟨1, leaves_dupField h hx hk⟩
  | none =>
    obtain rfl : x = env.computerName.map (·.name) := hx
    cases hname : env.computerName with
    | none =>
      refine ⟨0, .of_read (x := none) (by rw [← Option.map_none, ← hname]; rfl) ?_⟩
      rw [Option.map_none, Option.bind_none, update_eq_self hc]
      exact leaves_return h
    | some computer =>
      have hlen := computer.length_le
      refine ⟨1, .of_read (x := some computer.name) (by rw [← Option.map_some, ← hname]; rfl) ?_⟩
      exact leaves_setNew (n := .wzDomain) h computer.ne_zero (hlen.trans_lt (by decide)) hk

theorem Copied.isSome (h : Copied s c) (n : FieldName) : (s.rest n).isSome = (c n).isSome := by
  have hn := h n
  cases hc : c n with
  | none =>
    rw [hc] at hn
    rw [show s.rest n = none from hn]
    rfl
  | some w =>
    rw [hc] at hn
    obtain ⟨-, -, i, hi, -⟩ := hn
    rw [hi]
    rfl

/-- The end of `SetCredentials`. -/
theorem leaves_check (env : StepEnv) (base : ℕ) (h : Copied s c) :
    Leaves env base s (gotCredentials >>= fun got ↦ if !got then resetCredentials else pure ())
      (if (c .wzUserName).isSome ∧ (c .wzPassword).isSome ∧ (c .wzDomain).isSome then c
        else fun _ ↦ none) 0 := by
  refine .of_read (x := (c .wzUserName).isSome && (c .wzPassword).isSome && (c .wzDomain).isSome)
    ?_ ?_
  · rw [← h.isSome, ← h.isSome, ← h.isSome]
    rfl
  · by_cases hall : (c .wzUserName).isSome ∧ (c .wzPassword).isSome ∧ (c .wzDomain).isSome
    · rw [if_pos hall, hall.1, hall.2.1, hall.2.2]
      exact leaves_return h
    · have hgot :
          ((c .wzUserName).isSome && (c .wzPassword).isSome && (c .wzDomain).isSome) = false := by
        rw [← Bool.not_eq_true, Bool.and_eq_true, Bool.and_eq_true, and_assoc]
        exact hall
      rw [if_neg hall, hgot]
      exact leaves_resetCredentials env base h

/-- **The copies are all made, or they are all given up.** -/
theorem leaves_setCredentials {szUserName szPassword : Ptr} {szDomain : Option Ptr} {d : Delivery}
    (h : Copied s c) (hu : Readable s szUserName d.username) (hp : Readable s szPassword d.password)
    (hd : Means env s szDomain (d.domain <|> env.computerName.map (·.name)))
    (hk : s.heap.attempts = base + 2) :
    ∃ l, Leaves env base s (setCredentials szUserName szPassword szDomain)
      (strings (env.account d)) l := by
  obtain ⟨t₁, hrun₁, hch₁, h₁, hatt₁, hfaults₁⟩ := leaves_resetCredentials env base h
  obtain ⟨t₂, hrun₂, hch₂, h₂, hatt₂, hfaults₂⟩ := leaves_dupField (n := .wzUserName) h₁
    (hu.changes hch₁) (show t₁.heap.attempts = base + 2 by omega)
  have hch₂ := hch₁.trans hch₂
  obtain ⟨t₃, hrun₃, hch₃, h₃, hatt₃, hfaults₃⟩ := leaves_dupField (n := .wzPassword) h₂
    (hp.changes hch₂) (show t₂.heap.attempts = base + 3 by omega)
  have hch₃ := hch₂.trans hch₃
  obtain ⟨l, t₄, hrun₄, hch₄, h₄, hatt₄, hfaults₄⟩ := leaves_setDomain h₃ (hd.changes hch₃)
    (by simp) (show t₃.heap.attempts = base + 4 by omega)
  obtain ⟨t₅, hrun₅, hch₅, h₅, hatt₅, hfaults₅⟩ := leaves_check env base h₄
  refine ⟨1 + 1 + l, t₅, ?_, (hch₃.trans hch₄).trans hch₅, ?_, by omega,
    by rw [hfaults₅, hfaults₄, hfaults₃, hfaults₂, hfaults₁]⟩
  · rw [setCredentials, run_bind_ok hrun₁, run_bind_ok hrun₂, run_bind_ok hrun₃, run_bind_ok hrun₄]
    exact hrun₅
  · convert h₅ using 1
    funext n
    simp only [strings, StepEnv.account]
    generalize (d.domain <|> env.computerName.map (·.name)) = x
    cases x with
    | none => cases n <;> simp
    | some domain =>
      simp only [Option.bind_some]
      cases env.allocates 2 (sizeofCopy d.username) <;>
        cases env.allocates 3 (sizeofCopy d.password) <;>
        cases env.allocates 4 (sizeofCopy domain) <;> cases n <;> simp [Account.string]

theorem leaves_notify (env : StepEnv) {szUserName szPassword : Ptr} (szDomain : Option Ptr)
    (d : Delivery) (h : Copied s c) (hu : Readable s szUserName d.username)
    (hp : Readable s szPassword d.password)
    (hd : Means env s szDomain (d.domain <|> env.computerName.map (·.name)))
    (hk : s.heap.attempts = base + 2) :
    ∃ l, Leaves env base s (notify env.listener szUserName szPassword szDomain)
      (if env.listening then strings (env.account d) else c) l := by
  rw [StepEnv.listener]
  cases env.listening with
  | true => exact leaves_setCredentials h hu hp hd hk
  | false => exact ⟨0, leaves_return h⟩

end Fields

section Message

variable {env : StepEnv} {base : ℕ} {s t : State} {i j : ℕ} {v q : Wide} {a : Option Account}

/-- **What the listener is told is remembered**, and the two strings are left alone. -/
theorem exists_run_deliver_holds (env : StepEnv) (h : Holds s a) (hs : Strings s i j v q)
    (hk : s.heap.attempts = base + 2) :
    ∃ t v', (deliver env.listener ⟨i, 0⟩ ⟨j, 0⟩).run (env.machine base).handle s = (.ok (), t) ∧
      Holds t ((if env.listening then delivery v q else none).elim a env.account) ∧
      Strings t i j v' q ∧ t.heap.faults = s.heap.faults := by
  obtain ⟨hu, hp, hv, hq, hvn, hqn, hij, hi, hj, havi, havj⟩ := id hs
  by_cases hnil : v.takeWhile (· ≠ 0) = [] ∨ q.takeWhile (· ≠ 0) = []
  · refine ⟨s, v, run_deliver_of_nil env.listener hu hv hvn hp hq hqn hnil, ?_, hs, rfl⟩
    rw [delivery, if_pos hnil, ite_self]
    exact h
  · obtain ⟨hvne, hqne⟩ := not_or.mp hnil
    -- whoever is told remembers, and whoever is not does not
    have hkeep {t : State} {d : Delivery} (hd : delivery v q = some d)
        (ht : Copied t (if env.listening then strings (env.account d) else strings a)) :
        Holds t ((if env.listening then delivery v q else none).elim a env.account) := by
      rw [hd]
      revert ht
      cases env.listening <;> exact id
    by_cases hat : 0x40 ∈ v.takeWhile (· ≠ 0)
    · obtain ⟨x, y, rfl, hx, hy⟩ := exists_split_at hat hv
      obtain ⟨t₁, hrun₁, hsame₁, hfull₁, -⟩ := exists_run_deliver_at (m := env.machine base)
        env.listener hu hx hy hvn hp hq hqn hqne
      have hs₁ : Strings t₁ i j (x ++ 0 :: y) q :=
        { hs with
          username := hfull₁
          password := hsame₁.holds hp hij.symm
          zero_mem_username := List.mem_append_right _ (by simp)
          username_le := by simpa using hvn
          username_lt := hi.trans_eq hsame₁.next.symm
          password_lt := hj.trans_eq hsame₁.next.symm
          avoids_username := havi.of_rest hsame₁.rest
          avoids_password := havj.of_rest hsame₁.rest }
      have h₁ : Copied t₁ (strings a) := h.of_object hsame₁.rest hsame₁.next.ge fun k _ ↦ by
        by_cases hk : k = i
        · exact .inl (hk ▸ havi)
        · exact .inr (hsame₁.object k hk)
      have hname : (x ++ 0 :: y).takeWhile (· ≠ 0) = x := by
        rw [List.takeWhile_append_of_pos fun c hc ↦ by simpa using (hx c hc).1,
          List.takeWhile_cons_of_neg (by simp), List.append_nil]
      have hu₁ := hs₁.readable_username
      rw [hname] at hu₁
      obtain ⟨l, t₂, hrun₂, hch₂, h₂, -, hfaults₂⟩ := leaves_notify env
        (some ⟨i, 2 * x.length + 2⟩) ⟨x, q.takeWhile (· ≠ 0), some (y.takeWhile (· ≠ 0))⟩ h₁ hu₁
        hs₁.readable_password (hs₁.readable_domain hy) (hsame₁.attempts.trans hk)
      exact ⟨t₂, _, hrun₁.trans hrun₂, hkeep (delivery_at hx hqne) h₂, hs₁.changes hch₂,
        hfaults₂.trans hsame₁.faults⟩
    · have hd : delivery v q = some ⟨v.takeWhile (· ≠ 0), q.takeWhile (· ≠ 0), none⟩ := by
        rw [delivery]
        simp only [hvne, hqne, hat, or_self, if_false]
      obtain ⟨l, t, hrun, hch, ht, -, hfaults⟩ := leaves_notify env none
        ⟨v.takeWhile (· ≠ 0), q.takeWhile (· ≠ 0), none⟩ h hs.readable_username
        hs.readable_password rfl hk
      rw [← run_deliver_of_notMem env.listener hu hv hvn hp hq hqn hvne hqne hat] at hrun
      exact ⟨t, v, hrun, hkeep hd ht, hs.changes hch, hfaults⟩

variable {dec : Utf8Decoder} {login : Login}

/-- What follows the NULs of a string is nothing to the listener. -/
theorem delivery_padded (u p : Wide) (k l : ℕ) :
    delivery (padded u k) (padded p l) = delivery u p := by
  rw [delivery, takeWhile_padded, takeWhile_padded]
  rfl

/-- **A message is remembered as the model says**, and no access is a fault. -/
theorem holds_step_message (dec : Utf8Decoder) (env : StepEnv) (login : Login) (h : Holds s a) :
    Holds (step dec s (.message env login)) (remember dec a (.message env login)) ∧
      (step dec s (.message env login)).heap.faults = s.heap.faults := by
  have hrec : Received (receive s env login) _ _ _ := received_receive
  have hcopied : Holds (receive s env login) a :=
    h.of_object rfl (Nat.le_succ _) fun _ hk ↦ .inr (Heap.set_object_of_ne hk.ne)
  have hfirst (size : ℕ) : (env.machine s.heap.attempts).allocates
      (receive s env login).heap.attempts size = env.allocates 0 size :=
    congrArg (env.allocates · size) (Nat.sub_self _)
  have hsecond (size : ℕ) : (env.machine s.heap.attempts).allocates
      ((receive s env login).heap.attempts + 1) size = env.allocates 1 size :=
    congrArg (env.allocates · size) (Nat.add_sub_cancel_left ..)
  rw [step, length_message, remember, StepEnv.hears]
  cases h₁ : env.allocates 0 (2 * (login.username.length + 1)) with
  | false =>
    rw [← hfirst] at h₁
    rw [run_parse_of_fail dec env.listener hrec h₁]
    exact ⟨hcopied, rfl⟩
  | true =>
    rw [← hfirst] at h₁
    cases h₂ : env.allocates 1 (2 * (login.password.length + 1)) with
    | false =>
      rw [← hsecond] at h₂
      obtain ⟨t, bytes, hrun, hfaults, -, hobj, hnext, hrest⟩ :=
        exists_run_parse_of_fail dec env.listener hrec h₁ h₂
      rw [hrun]
      exact ⟨hcopied.of_object hrest ((Nat.le_succ _).trans_eq hnext.symm) fun k hk ↦
        .inr (hobj k hk), hfaults⟩
    | true =>
      rw [← hsecond] at h₂
      obtain ⟨t, hconv, hatt, hrun⟩ := exists_run_parse_attempts dec env.listener hrec h₁ h₂
      have ht : Holds t a := hcopied.of_object hconv.rest (by rw [hconv.next]; omega) fun k hk ↦
        .inr (hconv.object k hk)
      have hs := strings_of_converted hconv hcopied.inv login.length_le
      obtain ⟨t₁, v', hrun₁, h₁, hs₁, hfaults₁⟩ := exists_run_deliver_holds env ht hs
        (show t.heap.attempts = s.heap.attempts + 2 from hatt)
      obtain ⟨t₂, hrun₂, hobj₂, hnext₂, hfaults₂, hrest₂, -⟩ :=
        exists_run_free_strings (m := env.machine s.heap.attempts) (ε := Empty) hs₁.username
          hs₁.zero_mem_username hs₁.username_le hs₁.password hs₁.zero_mem_password hs₁.password_le
          hs₁.ne
      rw [hrun, run_bind_ok hrun₁, hrun₂]
      rw [delivery_padded] at h₁
      refine ⟨?_, hfaults₂.trans (hfaults₁.trans hconv.faults)⟩
      simp only [true_and]
      refine h₁.of_object hrest₂ hnext₂.ge fun k _ ↦ ?_
      by_cases hki : k = (receive s env login).heap.next
      · exact .inl (hki ▸ hs₁.avoids_username)
      · by_cases hkj : k = (receive s env login).heap.next + 1
        · exact .inl (hkj ▸ hs₁.avoids_password)
        · exact .inr (hobj₂ k hki hkj)

theorem holds_step (dec : Utf8Decoder) (h : Holds s a) (st : Step) :
    Holds (step dec s st) (remember dec a st) ∧
      (step dec s st).heap.faults = s.heap.faults := by
  cases st with
  | message env login => exact holds_step_message dec env login h
  | reset env =>
    obtain ⟨t, hrun, -, ht, -, hfaults⟩ := leaves_resetCredentials env s.heap.attempts h
    rw [step, hrun]
    exact ⟨ht, hfaults⟩

theorem holds_foldl_step (dec : Utf8Decoder) (steps : List Step) (h : Holds s a) :
    Holds (steps.foldl (step dec) s) (steps.foldl (remember dec) a) ∧
      (steps.foldl (step dec) s).heap.faults = s.heap.faults := by
  induction steps generalizing s a with
  | nil => exact ⟨h, rfl⟩
  | cons st steps ih =>
    obtain ⟨hst, hfaults⟩ := holds_step dec h st
    obtain ⟨hrun, hfaults'⟩ := ih hst
    exact ⟨hrun, hfaults'.trans hfaults⟩

theorem holds_start : Holds start none := fun _ ↦ rfl

/-- **The provider remembers what the model says**, whatever it is told, and nothing it does is a
fault. -/
theorem holds_exec (dec : Utf8Decoder) (steps : List Step) :
    Holds (exec dec steps) (remembered dec steps) ∧ (exec dec steps).heap.faults = [] :=
  holds_foldl_step dec steps holds_start

end Message

end GuestAgent.OVirtCredentials
