import GuestAgent.Library.RefCount
import GuestAgent.Windows.ComObjects
import Mathlib.Data.List.Nodup

/-!
# The lifetimes of the objects

`accounts_run` says that every count is right at any time, that nothing is used after it was
deleted, and that nothing is left when the caller has given up everything.  The class factory is the
exception: its `Release` looks at the count as it was before, and `factories_run` says that it is
never deleted.  `dllCanUnloadNow_run` is about what the DLL counts its objects for: it gives the
wrong answer, always.
-/

set_option autoImplicit false

namespace GuestAgent.Com

open RefCount
open OVirtProvider (UsageScenario)

/-! ## The accounts -/

/-- The counts of the credentials, of the events and of the DLL are right. -/
structure Accounts (s : Dll) (c : Client) : Prop where
  credentialsRef : ∀ k, s.credentialsRef k =
    (c.credentials k + refs s.providers s.pOVirtCredentials k : ℕ)
  mem_credentials : ∀ k, k ∈ s.credentials ↔ 0 < s.credentialsRef k
  nodup_credentials : s.credentials.Nodup
  eventsRef : ∀ e, s.eventsRef e = refs s.providers s.pCredentialProviderEvents e
  nodup_providers : s.providers.Nodup
  g_nRefCount : s.g_nRefCount = (s.providers.length + s.credentials.length + c.locks : ℕ)
  credentials_fresh : ∀ k, s.next ≤ k → s.credentialsRef k = 0
  providers_lt : ∀ i ∈ s.providers, i < s.next
  dangling : s.dangling = []

/-- What the credentials are not part of. -/
def Dll.core (s : Dll) : (List ℕ × List ℕ) × (ℕ → Int) × (ℕ → Int) :=
  ((s.factories, s.providers), s.factoryRef, s.providerRef)

namespace Client

variable (c : Client) (k n : ℕ) (o : Object) (hr : HResult)

@[simp] theorem set_locks : (c.set o n).locks = c.locks := by cases o <;> rfl

@[simp] theorem take_locks : (c.take o hr).locks = c.locks := by
  rw [take]
  split
  · exact set_locks ..
  · rfl

@[simp] theorem take_ok : c.take o .ok = c.set o (c.held o + 1) := rfl

@[simp] theorem held_set : (c.set o n).held o = n := by
  cases o <;> exact Function.update_self ..

@[simp] theorem set_set (m : ℕ) : (c.set o n).set o m = c.set o m := by
  cases o <;> simp [set]

@[simp] theorem set_held : c.set o (c.held o) = c := by
  cases o <;> simp [set, held]

theorem held_take_pos (h : 0 < c.held o) : 0 < (c.take o hr).held o := by
  rw [take]
  split
  · rw [held_set]
    exact Nat.succ_pos _
  · exact h

/-- One reference is given up for another. -/
theorem drop_take : ((c.take o .ok).take o hr).drop o = c.take o hr := by
  cases hr <;> simp [take, drop]

end Client

section Accounts

variable {s : Dll} {c c' : Client} {i k e : ℕ}

open Dll

theorem use_of_alive {o : Object} (h : s.alive o = true) : s.use o = s := if_pos h

theorem Accounts.use_credentials (h : Accounts s c) (hk : 0 < s.credentialsRef k) :
    s.use (.credentials k) = s :=
  use_of_alive (List.contains_iff_mem.mpr ((h.mem_credentials k).mpr hk))

/-- The credentials a provider refers to are there. -/
theorem Accounts.credentialsRef_pos (h : Accounts s c) (hi : i ∈ s.providers)
    (hk : s.pOVirtCredentials i = some k) : 0 < s.credentialsRef k := by
  have hpos := refs_pos hi hk
  rw [h.credentialsRef]
  omega

/-- The field of a provider is assigned, and what was in it, or is, is elsewhere. -/
theorem Accounts.setCredentials (h : Accounts s c) (hi : i ∈ s.providers) {b : Option ℕ}
    (hc : ∀ k, c'.credentials k + (if b = some k then 1 else 0) =
      c.credentials k + if s.pOVirtCredentials i = some k then 1 else 0)
    (hlocks : c'.locks = c.locks) : Accounts (s.setCredentials i b) c' :=
  { h with
    credentialsRef := fun k ↦ by
      have hupdate := refs_update (f := s.pOVirtCredentials) h.nodup_providers hi b k
      have hk := hc k
      rw [show (s.setCredentials i b).credentialsRef k = _ from h.credentialsRef k]
      simp only [Dll.setCredentials]
      omega
    g_nRefCount := hlocks ▸ h.g_nRefCount }

/-- Credentials are counted once more. -/
theorem Accounts.credentialsAddRef (h : Accounts s c) (hk : 0 < s.credentialsRef k) :
    Accounts (s.credentialsAddRef k) (c.take (.credentials k) .ok) := by
  rw [Dll.credentialsAddRef, h.use_credentials hk]
  refine { h with
    credentialsRef := fun k' ↦ ?_
    mem_credentials := fun k' ↦ ?_
    credentials_fresh := fun k' hk' ↦ ?_ }
  · have hcount := h.credentialsRef k'
    by_cases hkk : k' = k
    · subst hkk
      simp only [Client.take_ok, Client.set, Client.held, Function.update_self]
      omega
    · simp only [Client.take_ok, Client.set, Client.held, Function.update_of_ne hkk]
      exact hcount
  · by_cases hkk : k' = k
    · subst hkk
      simp only [Function.update_self, h.mem_credentials]
      omega
    · simp only [Function.update_of_ne hkk, h.mem_credentials]
  · have hfresh := h.credentials_fresh k' hk'
    have hkk : k' ≠ k := by
      rintro rfl
      omega
    simp only [Function.update_of_ne hkk]
    exact hfresh

/-- Credentials are counted once less, and if that was the last time they are deleted. -/
theorem Accounts.credentialsRelease (h : Accounts s c) (hk : 0 < c.credentials k) :
    Accounts (s.credentialsRelease k) (c.drop (.credentials k)) := by
  have hcount (k' : ℕ) := h.credentialsRef k'
  have hpos : 0 < s.credentialsRef k := by
    rw [hcount]
    omega
  have hmem : k ∈ s.credentials := (h.mem_credentials k).mpr hpos
  have href (k' : ℕ) : Function.update s.credentialsRef k (s.credentialsRef k - 1) k' =
      ((c.drop (.credentials k)).credentials k' +
        refs s.providers s.pOVirtCredentials k' : ℕ) := by
    by_cases hkk : k' = k
    · subst hkk
      simp only [Client.drop, Client.set, Client.held, Function.update_self]
      have := hcount k'
      omega
    · simp only [Client.drop, Client.set, Client.held, Function.update_of_ne hkk]
      exact hcount k'
  have hfresh (k' : ℕ) (hk' : s.next ≤ k') :
      Function.update s.credentialsRef k (s.credentialsRef k - 1) k' = 0 := by
    have hfresh := h.credentials_fresh k' hk'
    have hkk : k' ≠ k := by
      rintro rfl
      omega
    rw [Function.update_of_ne hkk, hfresh]
  rw [Dll.credentialsRelease, h.use_credentials hpos]
  split
  · refine { h with
      credentialsRef := href
      mem_credentials := fun k' ↦ ?_
      nodup_credentials := h.nodup_credentials.erase k
      g_nRefCount := ?_
      credentials_fresh := hfresh }
    · simp only [deleteCredentials, dllRelease]
      by_cases hkk : k' = k
      · subst hkk
        rw [Function.update_self]
        exact iff_of_false h.nodup_credentials.not_mem_erase (by omega)
      · rw [Function.update_of_ne hkk, List.mem_erase_of_ne hkk, h.mem_credentials]
    · have hlen := List.length_erase_of_mem hmem
      have := List.length_pos_of_mem hmem
      have := h.g_nRefCount
      simp only [deleteCredentials, dllRelease, Client.drop, Client.set_locks]
      omega
  · refine { h with
      credentialsRef := href
      mem_credentials := fun k' ↦ ?_
      credentials_fresh := hfresh }
    by_cases hkk : k' = k
    · subst hkk
      simp only [Function.update_self]
      exact iff_of_true hmem (by omega)
    · simp only [Function.update_of_ne hkk, h.mem_credentials]

/-- New credentials are their creator's. -/
theorem Accounts.newCredentials (h : Accounts s c) :
    Accounts s.newCredentials (c.take (.credentials s.next) .ok) := by
  have hzero := h.credentials_fresh s.next (Nat.le_refl _)
  have hnotMem : s.next ∉ s.credentials := by
    rw [h.mem_credentials]
    omega
  refine { h with
    credentialsRef := fun k ↦ ?_
    mem_credentials := fun k ↦ ?_
    nodup_credentials := List.nodup_cons.mpr ⟨hnotMem, h.nodup_credentials⟩
    g_nRefCount := ?_
    credentials_fresh := fun k hk ↦ ?_
    providers_lt := fun i hi ↦ Nat.lt_succ_of_lt (h.providers_lt i hi) }
  · have hcount := h.credentialsRef k
    by_cases hkk : k = s.next
    · subst hkk
      simp only [Dll.newCredentials, dllAddRef, Client.take_ok, Client.set, Client.held,
        Function.update_self]
      omega
    · simp only [Dll.newCredentials, dllAddRef, Client.take_ok, Client.set, Client.held,
        Function.update_of_ne hkk]
      exact hcount
  · simp only [Dll.newCredentials, dllAddRef, List.mem_cons, h.mem_credentials]
    by_cases hkk : k = s.next
    · subst hkk
      simp
    · simp only [Function.update_of_ne hkk, hkk, false_or]
  · have := h.g_nRefCount
    simp only [Dll.newCredentials, dllAddRef, List.length_cons, Client.take_locks]
    omega
  · have hne : k ≠ s.next := Nat.ne_of_gt (Nat.lt_of_succ_le hk)
    simp only [Dll.newCredentials, dllAddRef, Function.update_of_ne hne]
    exact h.credentials_fresh k (Nat.le_of_succ_le hk)

/-- The credentials of a provider are given up. -/
theorem Accounts.releaseCredentials (h : Accounts s c) (hi : i ∈ s.providers) :
    Accounts (s.releaseCredentials i) c := by
  rw [Dll.releaseCredentials]
  cases hk : s.pOVirtCredentials i with
  | none => exact h
  | some k =>
    -- the reference is out of the field before it is given up, for the order does not matter
    have hout : Accounts (s.setCredentials i none) (c.take (.credentials k) .ok) := by
      refine h.setCredentials hi (fun k' ↦ ?_) (by simp)
      rw [hk]
      by_cases hkk : k' = k
      · subst hkk
        simp [Client.set, Client.held]
      · simp [Client.set, Client.held, Function.update_of_ne hkk, Ne.symm hkk]
    have hrelease := hout.credentialsRelease (k := k) (by simp [Client.set, Client.held])
    have hdrop : (c.take (.credentials k) .ok).drop (.credentials k) = c := by
      simp [Client.drop, Client.set, Client.held]
    have hcomm : (s.credentialsRelease k).setCredentials i none =
        (s.setCredentials i none).credentialsRelease k := by
      have huse : s.use (.credentials k) = s := h.use_credentials (h.credentialsRef_pos hi hk)
      have hpos := hout.credentialsRef k
      have huse' : (s.setCredentials i none).use (.credentials k) = s.setCredentials i none :=
        hout.use_credentials (by rw [hpos]; simp [Client.set, Client.held]; omega)
      rw [Dll.credentialsRelease, Dll.credentialsRelease, huse, huse']
      by_cases hlast : s.credentialsRef k - 1 = 0
      · simp only [if_pos hlast]
        exact (if_pos hlast).symm
      · simp only [if_neg hlast]
        exact (if_neg hlast).symm
    simp only
    rw [hcomm, ← hdrop]
    exact hrelease

/-- An object of somebody else's is told by a provider, and the one before is let go. -/
theorem Accounts.setEvents (h : Accounts s c) (hi : i ∈ s.providers) {b : Option ℕ}
    {eventsRef : ℕ → Int} (heventsRef : ∀ e, eventsRef e +
      (if s.pCredentialProviderEvents i = some e then 1 else 0) =
        s.eventsRef e + if b = some e then 1 else 0) :
    Accounts { s.setEvents i b with eventsRef } c :=
  { h with
    eventsRef := fun e ↦ by
      have hupdate := refs_update (f := s.pCredentialProviderEvents) h.nodup_providers hi b e
      have he := heventsRef e
      have := h.eventsRef e
      simp only [Dll.setEvents]
      split_ifs at * <;> omega }

theorem Accounts.releaseEvents (h : Accounts s c) (hi : i ∈ s.providers) :
    Accounts (s.releaseEvents i) c := by
  rw [Dll.releaseEvents]
  cases he : s.pCredentialProviderEvents i with
  | none => exact h
  | some e =>
    refine h.setEvents hi fun e' ↦ ?_
    rw [he]
    by_cases hee : e' = e
    · subst hee
      simp [eventsRelease]
    · simp [eventsRelease, Function.update_of_ne hee, Ne.symm hee]

/-- Somebody is told of new credentials, instead of whoever was before. -/
theorem Accounts.advise (h : Accounts s c) (hi : i ∈ s.providers) (e : ℕ) :
    Accounts (s.advise i e) c := by
  have huse : s.use (.provider i) = s := use_of_alive (List.contains_iff_mem.mpr hi)
  rw [Dll.advise, huse]
  cases he : s.pCredentialProviderEvents i with
  | none =>
    refine h.setEvents (b := some e) hi fun e' ↦ ?_
    rw [he]
    simp only [Dll.setEvents, Function.update_apply, Option.some.injEq, reduceCtorEq]
    grind
  | some e₀ =>
    refine h.setEvents (b := some e) hi fun e' ↦ ?_
    rw [he]
    simp only [Dll.setEvents, eventsRelease, Function.update_apply, Option.some.injEq]
    grind

/-- A new provider has no fields yet. -/
theorem Accounts.newProvider (h : Accounts s c) : Accounts s.newProvider c := by
  have hnotMem : s.next ∉ s.providers := fun hi ↦ Nat.lt_irrefl _ (h.providers_lt _ hi)
  have hrefs (f : ℕ → Option ℕ) (x : ℕ) :
      refs (s.next :: s.providers) (Function.update f s.next none) x = refs s.providers f x := by
    rw [refs_cons, refs_update_of_notMem hnotMem, Function.update_self]
    simp
  exact { h with
    credentialsRef := fun k ↦ by
      simp only [Dll.newProvider, dllAddRef, hrefs]
      exact h.credentialsRef k
    eventsRef := fun e ↦ by
      simp only [Dll.newProvider, dllAddRef, hrefs]
      exact h.eventsRef e
    nodup_providers := List.nodup_cons.mpr ⟨hnotMem, h.nodup_providers⟩
    g_nRefCount := by
      have := h.g_nRefCount
      simp only [Dll.newProvider, dllAddRef, List.length_cons]
      omega
    credentials_fresh := fun k hk ↦ h.credentials_fresh k (Nat.le_of_succ_le hk)
    providers_lt := List.forall_mem_cons.mpr
      ⟨Nat.lt_succ_self _, fun i hi ↦ Nat.lt_succ_of_lt (h.providers_lt i hi)⟩ }

/-- A provider goes that refers to nothing. -/
theorem Accounts.eraseProvider (h : Accounts s c) (hi : i ∈ s.providers)
    (hcredentials : s.pOVirtCredentials i = none) (hevents : s.pCredentialProviderEvents i = none) :
    Accounts (dllRelease { s with providers := s.providers.erase i }) c :=
  { h with
    credentialsRef := fun k ↦ by
      simp only [dllRelease, refs_erase hcredentials]
      exact h.credentialsRef k
    eventsRef := fun e ↦ by
      simp only [dllRelease, refs_erase hevents]
      exact h.eventsRef e
    nodup_providers := h.nodup_providers.erase i
    g_nRefCount := by
      have hlen := List.length_erase_of_mem hi
      have := List.length_pos_of_mem hi
      have := h.g_nRefCount
      simp only [dllRelease]
      omega
    providers_lt := fun j hj ↦ h.providers_lt j (List.mem_of_mem_erase hj) }

/-- What the methods of the fields leave alone. -/
theorem core_use (s : Dll) (o : Object) : (s.use o).core = s.core := by
  rw [use]
  split <;> rfl

theorem core_credentialsRelease (s : Dll) (k : ℕ) : (s.credentialsRelease k).core = s.core := by
  rw [credentialsRelease]
  split <;> exact core_use s _

theorem core_releaseCredentials (s : Dll) (i : ℕ) : (s.releaseCredentials i).core = s.core := by
  rw [releaseCredentials]
  split
  · exact core_credentialsRelease s _
  · rfl

theorem core_releaseEvents (s : Dll) (i : ℕ) : (s.releaseEvents i).core = s.core := by
  rw [releaseEvents]
  split <;> rfl

theorem pOVirtCredentials_releaseEvents (s : Dll) (i : ℕ) :
    (s.releaseEvents i).pOVirtCredentials = s.pOVirtCredentials := by
  rw [releaseEvents]
  split <;> rfl

theorem pOVirtCredentials_releaseCredentials (s : Dll) (i : ℕ) :
    (s.releaseCredentials i).pOVirtCredentials i = none := by
  rw [releaseCredentials]
  split
  · exact Function.update_self ..
  · assumption

theorem pCredentialProviderEvents_releaseEvents (s : Dll) (i : ℕ) :
    (s.releaseEvents i).pCredentialProviderEvents i = none := by
  rw [releaseEvents]
  split
  · exact Function.update_self ..
  · assumption

theorem providers_eq_of_core {t : Dll} (h : t.core = s.core) : t.providers = s.providers :=
  congrArg (·.1.2) h

theorem Accounts.deleteProvider (h : Accounts s c) (hi : i ∈ s.providers) :
    Accounts (s.deleteProvider i) c := by
  have hchannel : Accounts (s.setChannel i false) c := { h with }
  have h₁ := hchannel.releaseCredentials hi
  have hi₁ : i ∈ ((s.setChannel i false).releaseCredentials i).providers := by
    rw [providers_eq_of_core (core_releaseCredentials _ i)]
    exact hi
  have h₂ := h₁.releaseEvents hi₁
  refine h₂.eraseProvider ?_ ?_ ?_
  · rw [providers_eq_of_core (core_releaseEvents _ i)]
    exact hi₁
  · rw [pOVirtCredentials_releaseEvents, pOVirtCredentials_releaseCredentials]
  · exact pCredentialProviderEvents_releaseEvents ..

/-- Either `new` of `SetUsageScenario` may fail. -/
theorem Accounts.createMembers (h : Accounts s c) (hi : i ∈ s.providers)
    (credentials channel : Bool) : Accounts (s.createMembers i credentials channel) c := by
  rw [Dll.createMembers]
  split
  · rename_i hnone
    split
    · -- the new credentials go from their creator into the field
      have hstored : Accounts (s.newCredentials.setCredentials i (some s.next)) c := by
        refine h.newCredentials.setCredentials hi (fun k ↦ ?_) (by simp)
        have hfield : s.newCredentials.pOVirtCredentials i = none := hnone.1
        rw [hfield]
        by_cases hkk : k = s.next
        · subst hkk
          simp [Client.set, Client.held]
        · simp [Client.set, Client.held, Function.update_of_ne hkk, Ne.symm hkk]
      split
      · exact { hstored with }
      · have hrelease := hstored.releaseCredentials hi
        have hfield : (s.newCredentials.setCredentials i (some s.next)).pOVirtCredentials i =
            some s.next := Function.update_self ..
        rwa [Dll.releaseCredentials, hfield] at hrelease
    · exact h
  · exact h

theorem core_createMembers (s : Dll) (i : ℕ) (credentials channel : Bool) :
    (s.createMembers i credentials channel).core = s.core := by
  rw [createMembers]
  split
  · split
    · simp only
      split
      · rfl
      · exact core_credentialsRelease ..
    · rfl
  · rfl

end Accounts

/-! ## A call -/

/-- Everything is in order: the counts of the other objects too are those of their references. -/
structure Sound (s : Dll) (c : Client) : Prop extends Accounts s c where
  providerRef : ∀ i, s.providerRef i = c.provider i
  mem_providers : ∀ i, i ∈ s.providers ↔ 0 < c.provider i
  factoryRef : ∀ f, s.factoryRef f = c.factory f
  mem_factories : ∀ f, 0 < c.factory f → f ∈ s.factories
  factory_fresh : ∀ f, s.next ≤ f → c.factory f = 0

section Sound

variable {s t : Dll} {c c' : Client} {f i k e : ℕ} {o : Object} {hr : HResult}

open Dll

/-- Who holds the credentials is of no matter to the rest. -/
theorem Sound.of_core (h : Sound s c) (ht : Accounts t c') (hcore : t.core = s.core)
    (hnext : s.next ≤ t.next) (hp : c'.provider = c.provider) (hf : c'.factory = c.factory) :
    Sound t c' := by
  simp only [core, Prod.mk.injEq] at hcore
  obtain ⟨⟨hfactories, hproviders⟩, hfactoryRef, hproviderRef⟩ := hcore
  refine { ht with
    providerRef := ?_
    mem_providers := ?_
    factoryRef := ?_
    mem_factories := ?_
    factory_fresh := ?_ }
  · rw [hproviderRef, hp]
    exact h.providerRef
  · rw [hproviders, hp]
    exact h.mem_providers
  · rw [hfactoryRef, hf]
    exact h.factoryRef
  · rw [hfactories, hf]
    exact h.mem_factories
  · rw [hf]
    exact fun f hle ↦ h.factory_fresh f (Nat.le_trans hnext hle)

/-- Who holds the other objects is of no matter to the accounts. -/
theorem Accounts.of_credentials (h : Accounts s c) (c' : Client)
    (hc : c'.credentials = c.credentials) (hlocks : c'.locks = c.locks) : Accounts s c' :=
  { h with
    credentialsRef := hc ▸ h.credentialsRef
    g_nRefCount := hlocks ▸ h.g_nRefCount }

theorem Accounts.withProviderRef (h : Accounts s c) (r : ℕ → Int) :
    Accounts { s with providerRef := r } c :=
  { h with }

theorem Sound.credentialsRef_pos (h : Sound s c) (hk : 0 < c.credentials k) :
    0 < s.credentialsRef k := by
  rw [h.credentialsRef]
  omega

/-- **What is held is there.** -/
theorem Sound.alive (h : Sound s c) (ho : 0 < c.held o) : s.alive o = true := by
  cases o with
  | factory f => exact List.contains_iff_mem.mpr (h.mem_factories f ho)
  | provider i => exact List.contains_iff_mem.mpr ((h.mem_providers i).mpr ho)
  | credentials k =>
    exact List.contains_iff_mem.mpr ((h.mem_credentials k).mpr (h.credentialsRef_pos ho))

theorem Sound.use (h : Sound s c) (ho : 0 < c.held o) : s.use o = s := use_of_alive (h.alive ho)

theorem next_use (s : Dll) (o : Object) : (s.use o).next = s.next := by
  rw [Dll.use]
  split <;> rfl

theorem next_credentialsRelease (s : Dll) (k : ℕ) : (s.credentialsRelease k).next = s.next := by
  rw [credentialsRelease]
  split <;> exact next_use s _

/-- A provider is counted anew, and is still there if it is referred to. -/
theorem Sound.setProvider (h : Sound s c) (ht : Accounts t c) {l : List ℕ} {n : ℕ} {r : Int}
    (hcore : t.core = ((s.factories, l), s.factoryRef, Function.update s.providerRef i r))
    (hnext : s.next ≤ t.next) (hr : r = n)
    (hl : ∀ j, j ∈ l ↔ if j = i then 0 < n else j ∈ s.providers) :
    Sound t (c.set (.provider i) n) := by
  simp only [core, Prod.mk.injEq] at hcore
  obtain ⟨⟨hfactories, hproviders⟩, hfactoryRef, hproviderRef⟩ := hcore
  refine { ht.of_credentials (c.set (.provider i) n) rfl rfl with
    providerRef := fun j ↦ ?_
    mem_providers := fun j ↦ ?_
    factoryRef := hfactoryRef ▸ h.factoryRef
    mem_factories := hfactories ▸ h.mem_factories
    factory_fresh := fun f hle ↦ h.factory_fresh f (Nat.le_trans hnext hle) }
  · rw [hproviderRef]
    by_cases hj : j = i
    · subst hj
      simp only [Client.set, Function.update_self, hr]
    · simp only [Client.set, Function.update_of_ne hj]
      exact h.providerRef j
  · rw [hproviders, hl]
    by_cases hj : j = i
    · subst hj
      simp only [Client.set, Function.update_self, if_pos]
    · simp only [Client.set, Function.update_of_ne hj, if_neg hj, h.mem_providers]

/-- So is a factory. -/
theorem Sound.setFactory (h : Sound s c) {n : ℕ} {r : Int} (hr : r = n) (hf : f ∈ s.factories)
    (hlt : f < s.next) :
    Sound { s with factoryRef := Function.update s.factoryRef f r } (c.set (.factory f) n) :=
  { h.toAccounts.of_credentials (c.set (.factory f) n) rfl rfl with
    providerRef := h.providerRef
    mem_providers := h.mem_providers
    factoryRef := fun f' ↦ by
      by_cases hff : f' = f
      · subst hff
        simp only [Client.set, Function.update_self, hr]
      · simp only [Client.set, Function.update_of_ne hff]
        exact h.factoryRef f'
    mem_factories := fun f' ↦ by
      by_cases hff : f' = f
      · subst hff
        exact fun _ ↦ hf
      · simp only [Client.set, Function.update_of_ne hff]
        exact h.mem_factories f'
    factory_fresh := fun f' hle ↦ by
      have hff : f' ≠ f := Nat.ne_of_gt (Nat.lt_of_lt_of_le hlt hle)
      simp only [Client.set, Function.update_of_ne hff]
      exact h.factory_fresh f' hle }

theorem Sound.factory_lt (h : Sound s c) (hf : 0 < c.factory f) : f < s.next := by
  by_contra hle
  have := h.factory_fresh f (Nat.le_of_not_lt hle)
  omega

theorem core_deleteProvider (s : Dll) (i : ℕ) :
    (s.deleteProvider i).core =
      ((s.factories, s.providers.erase i), s.factoryRef, s.providerRef) := by
  have hcore : (((s.setChannel i false).releaseCredentials i).releaseEvents i).core = s.core := by
    rw [core_releaseEvents, core_releaseCredentials]
    rfl
  simp only [core, Prod.mk.injEq] at hcore
  obtain ⟨⟨hfactories, hproviders⟩, hfactoryRef, hproviderRef⟩ := hcore
  simp only [deleteProvider, core, dllRelease, hfactories, hproviders, hfactoryRef, hproviderRef]

theorem next_releaseCredentials (s : Dll) (i : ℕ) : (s.releaseCredentials i).next = s.next := by
  rw [releaseCredentials]
  split
  · exact next_credentialsRelease s _
  · rfl

theorem next_releaseEvents (s : Dll) (i : ℕ) : (s.releaseEvents i).next = s.next := by
  rw [releaseEvents]
  split <;> rfl

theorem next_deleteProvider (s : Dll) (i : ℕ) : (s.deleteProvider i).next = s.next :=
  (next_releaseEvents _ i).trans (next_releaseCredentials _ i)

/-- One more reference. -/
theorem Sound.addRef (h : Sound s c) (ho : 0 < c.held o) : Sound (s.addRef o) (c.take o .ok) := by
  cases o with
  | credentials k =>
    have hpos := h.credentialsRef_pos ho
    exact h.of_core (h.credentialsAddRef hpos) (core_use s _) (Nat.le_of_eq (next_use s _).symm) rfl
      rfl
  | provider i =>
    rw [Dll.addRef, providerAddRef, h.use ho]
    refine h.setProvider (n := c.provider i + 1) (h.withProviderRef _) rfl (Nat.le_refl _)
      (by rw [h.providerRef]; rfl) fun j ↦ ?_
    split
    · rename_i hj
      exact iff_of_true (hj ▸ (h.mem_providers i).mpr ho) (Nat.succ_pos _)
    · exact Iff.rfl
  | factory f =>
    rw [Dll.addRef, factoryAddRef, h.use ho]
    exact h.setFactory (by rw [h.factoryRef]; rfl) (h.mem_factories f ho) (h.factory_lt ho)

/-- One reference less. -/
theorem Sound.release (h : Sound s c) (ho : 0 < c.held o) : Sound (s.release o) (c.drop o) := by
  cases o with
  | credentials k =>
    refine h.of_core (h.credentialsRelease ho) (core_credentialsRelease s k)
      (Nat.le_of_eq (next_credentialsRelease s k).symm) rfl rfl
  | provider i =>
    have hmem : i ∈ s.providers := (h.mem_providers i).mpr ho
    have hcount : s.providerRef i - 1 = (c.provider i - 1 : ℕ) := by
      have : 0 < c.provider i := ho
      rw [h.providerRef]
      omega
    rw [Dll.release, providerRelease, h.use ho]
    by_cases hlast : s.providerRef i - 1 = 0
    · -- that was the last one
      have hs := h.withProviderRef (Function.update s.providerRef i (s.providerRef i - 1))
      simp only [if_pos hlast]
      refine h.setProvider (hs.deleteProvider hmem) (core_deleteProvider ..)
        (by simp only [next_deleteProvider, Nat.le_refl]) hcount fun j ↦ ?_
      split
      · rename_i hj
        refine iff_of_false (hj ▸ h.nodup_providers.not_mem_erase) ?_
        rw [Client.held]
        omega
      · exact List.mem_erase_of_ne ‹_›
    · simp only [if_neg hlast]
      refine h.setProvider (h.withProviderRef _) rfl (Nat.le_refl _) hcount fun j ↦ ?_
      split
      · rename_i hj
        refine iff_of_true (hj ▸ hmem) ?_
        rw [Client.held]
        omega
      · exact Iff.rfl
  | factory f =>
    have hcount : s.factoryRef f - 1 = (c.factory f - 1 : ℕ) := by
      have : 0 < c.factory f := ho
      rw [h.factoryRef]
      omega
    have hne : s.factoryRef f ≠ 0 := by
      have : 0 < c.factory f := ho
      rw [h.factoryRef]
      omega
    rw [Dll.release, factoryRelease, h.use ho]
    simp only [if_neg hne]
    exact h.setFactory hcount (h.mem_factories f ho) (h.factory_lt ho)

theorem Sound.queryInterface (h : Sound s c) (ho : 0 < c.held o) (riid : Riid) (ppv : Bool) :
    Sound (s.queryInterface o riid ppv).2 (c.take o (s.queryInterface o riid ppv).1) := by
  have hadd := h.addRef ho
  cases o with
  | factory f =>
    rw [Dll.queryInterface, factoryQueryInterface, h.use ho]
    split_ifs
    · exact hadd
    · exact h
    · exact h
  | provider i =>
    rw [Dll.queryInterface, providerQueryInterface, h.use ho]
    split_ifs
    · exact hadd
    · exact h
    · exact h
  | credentials k =>
    rw [Dll.queryInterface, credentialsQueryInterface, h.use ho]
    split_ifs
    · exact hadd
    · exact h
    · exact h

theorem Sound.newProvider (h : Sound s c) :
    Sound s.newProvider (c.take (.provider s.next) .ok) := by
  have hzero : c.provider s.next = 0 := by
    by_contra hne
    exact Nat.lt_irrefl _ (h.providers_lt _ ((h.mem_providers _).mpr (Nat.pos_of_ne_zero hne)))
  refine h.setProvider (n := c.provider s.next + 1) h.toAccounts.newProvider rfl (Nat.le_succ _)
    (by rw [hzero]; rfl) fun j ↦ ?_
  rw [show s.newProvider.providers = s.next :: s.providers from rfl, List.mem_cons]
  split
  · rename_i hj
    exact iff_of_true (.inl hj) (Nat.succ_pos _)
  · exact or_iff_right ‹_›

/-- The reference that `new` returns is given up for the one that was asked for, if there is one. -/
theorem Sound.queryInterface_release (h : Sound s (c.take o .ok)) (riid : Riid) (ppv : Bool) :
    Sound ((s.queryInterface o riid ppv).2.release o)
      (c.take o (s.queryInterface o riid ppv).1) := by
  have hpos : 0 < (c.take o .ok).held o := by simp
  have hquery := h.queryInterface hpos riid ppv
  have hrelease := hquery.release (Client.held_take_pos _ o _ hpos)
  rwa [Client.drop_take] at hrelease

theorem Sound.createInstance (h : Sound s c) (hf : 0 < c.factory f) (pUnkOuter allocates : Bool)
    (riid : Riid) (ppv : Bool) :
    Sound (s.createInstance f pUnkOuter allocates riid ppv).2
      (c.take (.provider s.next) (s.createInstance f pUnkOuter allocates riid ppv).1) := by
  rw [Dll.createInstance, h.use (o := .factory f) hf]
  cases pUnkOuter with
  | true => exact h
  | false =>
    cases allocates with
    | false => exact h
    | true => exact h.newProvider.queryInterface_release riid ppv

theorem Sound.newFactory (h : Sound s c) : Sound s.newFactory (c.take (.factory s.next) .ok) := by
  have hnumbered : Sound { s with factories := s.next :: s.factories, next := s.next + 1 } c :=
    { h with
      mem_factories := fun f hf ↦ List.mem_cons_of_mem _ (h.mem_factories f hf)
      factory_fresh := fun f hf ↦ h.factory_fresh f (Nat.le_of_succ_le hf)
      credentials_fresh := fun k hk ↦ h.credentials_fresh k (Nat.le_of_succ_le hk)
      providers_lt := fun i hi ↦ Nat.lt_succ_of_lt (h.providers_lt i hi) }
  have hzero : c.factory s.next = 0 := h.factory_fresh _ (Nat.le_refl _)
  exact hnumbered.setFactory (n := c.factory s.next + 1) (by rw [hzero]; rfl) List.mem_cons_self
    (Nat.lt_succ_self _)

theorem Sound.dllGetClassObject (h : Sound s c) (rclsid allocates : Bool) (riid : Riid)
    (ppv : Bool) :
    Sound (s.dllGetClassObject rclsid allocates riid ppv).2
      (c.take (.factory s.next) (s.dllGetClassObject rclsid allocates riid ppv).1) := by
  cases rclsid with
  | false => exact h
  | true =>
    cases allocates with
    | false => exact h
    | true => exact h.newFactory.queryInterface_release riid ppv

theorem Sound.lockServer (h : Sound s c) (hf : 0 < c.factory f) {bLock : Bool}
    (hlock : bLock = true ∨ 0 < c.locks) :
    Sound (s.lockServer f bLock)
      { c with locks := if bLock then c.locks + 1 else c.locks - 1 } := by
  have hcount := h.g_nRefCount
  rw [Dll.lockServer, h.use (o := .factory f) hf]
  cases bLock with
  | true =>
    exact { h with
      g_nRefCount := by
        simp only [dllAddRef, if_true]
        omega }
  | false =>
    have hpos : 0 < c.locks := hlock.resolve_left (by simp)
    exact { h with
      g_nRefCount := by
        simp only [dllRelease, Bool.false_eq_true, if_false]
        omega }

theorem next_createMembers_le (s : Dll) (i : ℕ) (credentials channel : Bool) :
    s.next ≤ (s.createMembers i credentials channel).next := by
  rw [createMembers]
  split
  · split
    · simp only
      split
      · exact Nat.le_succ _
      · have hnext :=
          next_credentialsRelease (s.newCredentials.setCredentials i (some s.next)) s.next
        exact Nat.le_trans (Nat.le_succ _) (Nat.le_of_eq hnext.symm)
    · exact Nat.le_refl _
  · exact Nat.le_refl _

theorem Sound.setUsageScenario (h : Sound s c) (hi : 0 < c.provider i) (cpus : UsageScenario)
    (credentials channel : Bool) : Sound (s.setUsageScenario i cpus credentials channel) c := by
  have hmem := (h.mem_providers i).mpr hi
  have hcreate : Sound (s.createMembers i credentials channel) c :=
    h.of_core (h.createMembers hmem credentials channel) (core_createMembers ..)
      (next_createMembers_le ..) rfl rfl
  rw [Dll.setUsageScenario, h.use (o := .provider i) hi]
  split
  · simp only
    split
    · rename_i k hk
      have hpos := hcreate.toAccounts.credentialsRef_pos ((hcreate.mem_providers i).mpr hi) hk
      rw [hcreate.use_credentials hpos]
      exact hcreate
    · exact hcreate
  · exact h

theorem Sound.advise (h : Sound s c) (hi : 0 < c.provider i) (e : ℕ) : Sound (s.advise i e) c := by
  have huse := h.use (o := .provider i) hi
  refine h.of_core (h.toAccounts.advise ((h.mem_providers i).mpr hi) e) ?_ (Nat.le_of_eq ?_) rfl rfl
  · rw [Dll.advise, huse]
    split <;> rfl
  · rw [Dll.advise, huse]
    split <;> rfl

theorem Sound.unAdvise (h : Sound s c) (hi : 0 < c.provider i) : Sound (s.unAdvise i) c := by
  rw [Dll.unAdvise, h.use (o := .provider i) hi]
  exact h.of_core (h.releaseEvents ((h.mem_providers i).mpr hi)) (core_releaseEvents s i)
    (Nat.le_of_eq (next_releaseEvents s i).symm) rfl rfl

/-- What is referred to by a provider may be asked for, and is held then. -/
theorem Sound.getCredentialAt (h : Sound s c) (hi : 0 < c.provider i) (dwIndex : ℕ)
    (ppcpc : Bool) {k : ℕ} (hk : s.pOVirtCredentials i = some k) :
    Sound (s.getCredentialAt i dwIndex ppcpc).2
      (c.take (.credentials k) (s.getCredentialAt i dwIndex ppcpc).1) := by
  have hpos := h.toAccounts.credentialsRef_pos ((h.mem_providers i).mpr hi) hk
  have hadd : Sound (s.credentialsAddRef k) (c.take (.credentials k) .ok) :=
    h.of_core (h.toAccounts.credentialsAddRef hpos) (core_use s _)
      (Nat.le_of_eq (next_use s _).symm) rfl rfl
  rw [Dll.getCredentialAt, h.use (o := .provider i) hi, hk]
  simp only
  split
  · rw [credentialsQueryInterface, h.use_credentials hpos]
    exact hadd
  · exact h

/-- **A call leaves everything in order.** -/
theorem sound_call {x : Dll × Client} (h : Sound x.1 x.2) {a : Call} (ha : a.allowed x.2 = true) :
    Sound (call x a).1 (call x a).2 := by
  rcases x with ⟨s, c⟩
  cases a with
  | getClassObject rclsid allocates riid ppv => exact h.dllGetClassObject rclsid allocates riid ppv
  | addRef o => exact h.addRef (of_decide_eq_true ha)
  | release o => exact h.release (of_decide_eq_true ha)
  | queryInterface o riid ppv => exact h.queryInterface (of_decide_eq_true ha) riid ppv
  | createInstance f pUnkOuter allocates riid ppv =>
    exact h.createInstance (of_decide_eq_true ha) pUnkOuter allocates riid ppv
  | lockServer f bLock =>
    simp only [Call.allowed, Bool.and_eq_true, decide_eq_true_eq, Bool.or_eq_true] at ha
    exact h.lockServer ha.1 ha.2
  | setUsageScenario i cpus credentials channel =>
    exact h.setUsageScenario (of_decide_eq_true ha) cpus credentials channel
  | advise i e => exact h.advise (of_decide_eq_true ha) e
  | unAdvise i => exact h.unAdvise (of_decide_eq_true ha)
  | getCredentialAt i dwIndex ppcpc =>
    have hi : 0 < c.provider i := of_decide_eq_true ha
    simp only [call]
    cases hk : s.pOVirtCredentials i with
    | some k => exact h.getCredentialAt hi dwIndex ppcpc hk
    | none =>
      simp only
      rw [Dll.getCredentialAt, h.use (o := .provider i) hi, hk]
      exact h

theorem sound_start : Sound Dll.load Client.start where
  credentialsRef _ := rfl
  mem_credentials k := by simp [Dll.load]
  nodup_credentials := List.nodup_nil
  eventsRef _ := rfl
  nodup_providers := List.nodup_nil
  g_nRefCount := rfl
  credentials_fresh _ _ := rfl
  providers_lt := by simp [Dll.load]
  dangling := rfl
  providerRef _ := rfl
  mem_providers i := by simp [Dll.load, Client.start]
  factoryRef _ := rfl
  mem_factories f hf := absurd hf (Nat.lt_irrefl 0)
  factory_fresh _ _ := rfl

theorem sound_foldl_step (calls : List Call) :
    Sound (calls.foldl step (Dll.load, Client.start)).1
      (calls.foldl step (Dll.load, Client.start)).2 :=
  List.foldlRecOn (motive := fun x : Dll × Client ↦ Sound x.1 x.2) calls step sound_start
    fun x h a _ ↦ by
      rw [step]
      split
      · exact sound_call h ‹_›
      · exact h

/-- **The counts are right**, at any time: nothing is used after it was deleted, an object is there
as long as somebody refers to it, and nothing is left once nobody does. -/
theorem accounts_run (calls : List Call) :
    let s := (run calls).1
    let c := (run calls).2
    s.dangling = [] ∧
      (∀ i, s.providerRef i = c.provider i ∧ (i ∈ s.providers ↔ 0 < c.provider i)) ∧
      (∀ k, s.credentialsRef k = (c.credentials k + refs s.providers s.pOVirtCredentials k : ℕ) ∧
        (k ∈ s.credentials ↔ 0 < s.credentialsRef k)) ∧
      (∀ e, s.eventsRef e = refs s.providers s.pCredentialProviderEvents e) ∧
      ((∀ i, c.provider i = 0) → (∀ k, c.credentials k = 0) →
        s.providers = [] ∧ s.credentials = [] ∧ ∀ e, s.eventsRef e = 0) := by
  have h := sound_foldl_step calls
  refine ⟨h.dangling, fun i ↦ ⟨h.providerRef i, h.mem_providers i⟩,
    fun k ↦ ⟨h.credentialsRef k, h.mem_credentials k⟩, h.eventsRef, fun hi hk ↦ ?_⟩
  have hproviders : (run calls).1.providers = [] :=
    List.eq_nil_iff_forall_not_mem.mpr fun i hmem ↦ by
      have := (h.mem_providers i).mp hmem
      have := hi i
      simp only [run] at *
      omega
  refine ⟨hproviders, List.eq_nil_iff_forall_not_mem.mpr fun k hmem ↦ ?_, fun e ↦ ?_⟩
  · have hpos := (h.mem_credentials k).mp hmem
    have hcount := h.credentialsRef k
    have hnone := hk k
    simp only [run] at *
    rw [hproviders, refs_nil, hnone] at hcount
    omega
  · have hcount := h.eventsRef e
    simp only [run] at *
    rw [hcount, hproviders, refs_nil]
    rfl

/-- **The DLL may be unloaded exactly when it is in use**: `S_OK` is the answer as long as there is
an object, or a lock. -/
theorem dllCanUnloadNow_run (calls : List Call) :
    (run calls).1.dllCanUnloadNow = 0 ↔
      (run calls).1.providers ≠ [] ∨ (run calls).1.credentials ≠ [] ∨ 0 < (run calls).2.locks := by
  have hcount := (sound_foldl_step calls).g_nRefCount
  rw [dllCanUnloadNow, ← List.length_pos_iff, ← List.length_pos_iff, run]
  by_cases hle : (calls.foldl step (Dll.load, Client.start)).1.g_nRefCount ≤ 0
  · rw [if_pos hle]
    exact iff_of_false (by decide) (by omega)
  · rw [if_neg hle]
    exact iff_of_true rfl (by omega)

end Sound

/-! ## The class factory -/

/-- A class factory is made. -/
def Call.makesFactory : Call → Bool
  | getClassObject rclsid allocates .. => rclsid && allocates
  | _ => false

section Factory

variable {s : Dll} {c : Client}

open Dll

@[simp] theorem factories_use (s : Dll) (o : Object) : (s.use o).factories = s.factories :=
  congrArg (·.1.1) (core_use s o)

@[simp] theorem factories_credentialsRelease (s : Dll) (k : ℕ) :
    (s.credentialsRelease k).factories = s.factories :=
  congrArg (·.1.1) (core_credentialsRelease s k)

@[simp] theorem factories_createMembers (s : Dll) (i : ℕ) (credentials channel : Bool) :
    (s.createMembers i credentials channel).factories = s.factories :=
  congrArg (·.1.1) (core_createMembers s i credentials channel)

@[simp] theorem factories_releaseEvents (s : Dll) (i : ℕ) :
    (s.releaseEvents i).factories = s.factories :=
  congrArg (·.1.1) (core_releaseEvents s i)

@[simp] theorem factories_deleteProvider (s : Dll) (i : ℕ) :
    (s.deleteProvider i).factories = s.factories :=
  congrArg (·.1.1) (core_deleteProvider s i)

@[simp] theorem factories_addRef (s : Dll) (o : Object) : (s.addRef o).factories = s.factories := by
  cases o <;> exact factories_use s _

@[simp] theorem factories_queryInterface (s : Dll) (o : Object) (riid : Riid) (ppv : Bool) :
    (s.queryInterface o riid ppv).2.factories = s.factories := by
  have hadd := factories_addRef (s.use o) o
  rw [factories_use] at hadd
  cases o with
  | factory f =>
    rw [Dll.queryInterface, factoryQueryInterface]
    split_ifs <;> first | exact hadd | exact factories_use ..
  | provider i =>
    rw [Dll.queryInterface, providerQueryInterface]
    split_ifs <;> first | exact hadd | exact factories_use ..
  | credentials k =>
    rw [Dll.queryInterface, credentialsQueryInterface]
    split_ifs <;> first | exact hadd | exact factories_use ..

@[simp] theorem factories_providerRelease (s : Dll) (i : ℕ) :
    (s.providerRelease i).factories = s.factories := by
  rw [providerRelease]
  split
  · rw [factories_deleteProvider]
    exact factories_use ..
  · exact factories_use ..

/-- `Release` does not delete a factory that is held. -/
theorem Sound.factories_release {o : Object} (h : Sound s c) (ho : 0 < c.held o) :
    (s.release o).factories = s.factories := by
  cases o with
  | provider i => exact factories_providerRelease s i
  | credentials k => exact factories_credentialsRelease s k
  | factory f =>
    have hne : s.factoryRef f ≠ 0 := by
      have : 0 < c.factory f := ho
      rw [h.factoryRef]
      omega
    rw [Dll.release, factoryRelease, h.use ho]
    simp only [if_neg hne]

theorem factories_createInstance (s : Dll) (f : ℕ) (pUnkOuter allocates : Bool) (riid : Riid)
    (ppv : Bool) : (s.createInstance f pUnkOuter allocates riid ppv).2.factories = s.factories := by
  rw [createInstance]
  cases pUnkOuter with
  | true => exact factories_use ..
  | false =>
    cases allocates with
    | false => exact factories_use ..
    | true =>
      have hquery := factories_queryInterface (s.use (.factory f)).newProvider
        (.provider (s.use (.factory f)).next) riid ppv
      refine (factories_providerRelease ..).trans (hquery.trans ?_)
      exact factories_use ..

theorem Sound.length_factories_getClassObject (h : Sound s c) (rclsid allocates : Bool)
    (riid : Riid) (ppv : Bool) :
    (s.dllGetClassObject rclsid allocates riid ppv).2.factories.length =
      s.factories.length + if rclsid && allocates then 1 else 0 := by
  cases rclsid with
  | false => rfl
  | true =>
    cases allocates with
    | false => rfl
    | true =>
      have hpos : 0 < (c.take (.factory s.next) .ok).held (.factory s.next) := by simp
      have hquery := h.newFactory.queryInterface hpos riid ppv
      have hrelease := hquery.factories_release (Client.held_take_pos _ _ _ hpos)
      rw [factories_queryInterface] at hrelease
      exact congrArg List.length hrelease

theorem length_factories_call {x : Dll × Client} (h : Sound x.1 x.2) {a : Call}
    (ha : a.allowed x.2 = true) :
    (call x a).1.factories.length = x.1.factories.length + if a.makesFactory then 1 else 0 := by
  rcases x with ⟨s, c⟩
  have hlen {t : Dll} (ht : t.factories = s.factories) :
      t.factories.length = s.factories.length := congrArg List.length ht
  cases a with
  | getClassObject rclsid allocates riid ppv =>
    exact h.length_factories_getClassObject rclsid allocates riid ppv
  | addRef o => exact hlen (factories_addRef s o)
  | release o => exact hlen (h.factories_release (of_decide_eq_true ha))
  | queryInterface o riid ppv => exact hlen (factories_queryInterface s o riid ppv)
  | createInstance f pUnkOuter allocates riid ppv =>
    exact hlen (factories_createInstance s f pUnkOuter allocates riid ppv)
  | lockServer f bLock =>
    refine hlen (t := s.lockServer f bLock) ?_
    rw [lockServer]
    split <;> exact factories_use ..
  | setUsageScenario i cpus credentials channel =>
    refine hlen (t := s.setUsageScenario i cpus credentials channel) ?_
    rw [setUsageScenario]
    split
    · simp only
      split <;> simp
    · simp
  | advise i e =>
    refine hlen (t := s.advise i e) ?_
    rw [advise]
    split <;> exact factories_use ..
  | unAdvise i => exact hlen ((factories_releaseEvents _ i).trans (factories_use ..))
  | getCredentialAt i dwIndex ppcpc =>
    have hget : (s.getCredentialAt i dwIndex ppcpc).2.factories = s.factories := by
      rw [getCredentialAt]
      split
      · split
        · rename_i k _ _
          exact (factories_queryInterface (s.use (.provider i)) (.credentials k)
            .iCredentialProviderCredential true).trans (factories_use ..)
        · exact factories_use ..
      · exact factories_use ..
    simp only [call]
    split <;> exact hlen hget

/-- **A class factory is never deleted.**  As many are left as were made. -/
theorem factories_run (calls : List Call) :
    (run calls).1.factories.length = calls.countP Call.makesFactory := by
  have hrun : ∀ x : Dll × Client, Sound x.1 x.2 →
      (calls.foldl step x).1.factories.length =
        x.1.factories.length + calls.countP Call.makesFactory := by
    induction calls with
    | nil => exact fun _ _ ↦ rfl
    | cons a calls ih =>
      intro x h
      rw [List.foldl_cons, List.countP_cons, step]
      split
      · rename_i ha
        rw [ih _ (sound_call h ha), length_factories_call h ha]
        omega
      · rename_i ha
        -- a factory may be asked for by anyone
        have hmakes : a.makesFactory = false := by
          cases a <;> first | rfl | exact absurd rfl ha
        rw [ih x h, hmakes]
        rfl
  exact (hrun _ sound_start).trans (Nat.zero_add _)

end Factory

end GuestAgent.Com
