import Mathlib.Data.List.Induction
import Mathlib.Data.List.Dedup
import Mathlib.Data.List.Perm.Basic

/-!
# The network interfaces of a Windows guest

Windows lists an adapter once for each of its configurations, so that the agent merges the
interfaces that have the same hardware address.  The first of them is the one that is kept, and the
addresses of the others are added to it.

`Merges` says what that is to be, without an order: one interface for each hardware address, with
the name of the first one and the addresses of all of them.  It follows from `Merges` alone that the
addresses do not depend on the order of the interfaces and that there is nothing to merge again.

The order in which Python goes through a dict or a set is not specified.  `HashOrder` is some order.
The interfaces are changed in place, but as the dict and the lists of each are new ones, nothing
else sees it, and they are values here.
-/

set_option autoImplicit false

namespace GuestAgent

variable {Name Hw Addr : Type}

/-- An interface as `GetNetworkInterfaces` makes it. -/
structure Interface (Name Hw Addr : Type) where
  name : Name
  inet : List Addr
  inet6 : List Addr
  hw : Hw

/-- The two lists of addresses of an interface. -/
inductive Family where
  | inet
  | inet6

def Interface.addresses (i : Interface Name Hw Addr) : Family → List Addr
  | .inet => i.inet
  | .inet6 => i.inet6

/-- `intf['inet'] += interface['inet']` and the same for `inet6`. -/
def Interface.addAddresses (intf interface : Interface Name Hw Addr) : Interface Name Hw Addr :=
  { intf with inet := intf.inet ++ interface.inet, inet6 := intf.inet6 ++ interface.inet6 }

/-- An order in which the values of a dict and the members of a set are gone through. -/
structure HashOrder (Name Hw Addr : Type) where
  /-- `temp.itervalues()`. -/
  itervalues : List (Hw × Interface Name Hw Addr) → List (Interface Name Hw Addr)
  itervalues_perm : ∀ temp, (itervalues temp).Perm (temp.map Prod.snd)
  /-- `list(set(xs))`. -/
  listSet : List Addr → List Addr
  nodup_listSet : ∀ xs, (listSet xs).Nodup
  mem_listSet : ∀ xs a, a ∈ listSet xs ↔ a ∈ xs

/-- Everything in the order of insertion. -/
def HashOrder.insertion [DecidableEq Addr] : HashOrder Name Hw Addr where
  itervalues temp := temp.map Prod.snd
  itervalues_perm _ := .refl _
  listSet xs := xs.dedup
  nodup_listSet _ := List.nodup_dedup _
  mem_listSet _ _ := List.mem_dedup

section Merge

variable [DecidableEq Hw]

/-- One pass of the first loop of `merge_duplicate_interfaces`. -/
def mergeInterface (temp : List (Hw × Interface Name Hw Addr))
    (interface : Interface Name Hw Addr) : List (Hw × Interface Name Hw Addr) :=
  let hw := interface.hw
  if hw ∈ temp.map Prod.fst then
    temp.map fun entry ↦ if entry.1 = hw then (hw, entry.2.addAddresses interface) else entry
  else temp ++ [(hw, interface)]

/-- `merge_duplicate_interfaces`. -/
def mergeDuplicateInterfaces (order : HashOrder Name Hw Addr)
    (interfaces : List (Interface Name Hw Addr)) : List (Interface Name Hw Addr) :=
  let temp := interfaces.foldl mergeInterface []
  (order.itervalues temp).map fun intf ↦
    { intf with inet := order.listSet intf.inet, inet6 := order.listSet intf.inet6 }

/-! ## What merging is -/

/-- `intf` is what has been merged of the interfaces with the hardware address `hw`. -/
structure Collects (interfaces : List (Interface Name Hw Addr)) (hw : Hw)
    (intf : Interface Name Hw Addr) : Prop where
  hw_eq : intf.hw = hw
  name_eq : (interfaces.find? (·.hw = hw)).map (·.name) = some intf.name
  mem_iff : ∀ family a, a ∈ intf.addresses family ↔
    ∃ i ∈ interfaces, i.hw = hw ∧ a ∈ i.addresses family

/-- The result has one interface for each hardware address, which has all addresses once. -/
structure Merges (interfaces result : List (Interface Name Hw Addr)) : Prop where
  nodup_hw : (result.map (·.hw)).Nodup
  mem_hw_iff : ∀ hw, hw ∈ result.map (·.hw) ↔ hw ∈ interfaces.map (·.hw)
  collects : ∀ intf ∈ result, Collects interfaces intf.hw intf
  nodup : ∀ intf ∈ result, ∀ family, (intf.addresses family).Nodup

/-- The addresses do not depend on the order. -/
theorem Merges.perm {xs ys rs ss : List (Interface Name Hw Addr)} (hxs : Merges xs rs)
    (hys : Merges ys ss) (hperm : xs.Perm ys) {r s : Interface Name Hw Addr} (hr : r ∈ rs)
    (hs : s ∈ ss) (heq : r.hw = s.hw) (family : Family) (a : Addr) :
    a ∈ r.addresses family ↔ a ∈ s.addresses family := by
  rw [(hxs.collects r hr).mem_iff, (hys.collects s hs).mem_iff, heq]
  simp only [hperm.mem_iff]

/-- Merged interfaces have nothing to merge. -/
theorem Merges.again {xs rs ss : List (Interface Name Hw Addr)} (hxs : Merges xs rs)
    (hrs : Merges rs ss) {r s : Interface Name Hw Addr} (hr : r ∈ rs) (hs : s ∈ ss)
    (heq : r.hw = s.hw) :
    s.name = r.name ∧ ∀ family a, a ∈ s.addresses family ↔ a ∈ r.addresses family := by
  have honly : ∀ i ∈ rs, i.hw = s.hw → i = r := fun i hi hhw ↦
    List.inj_on_of_nodup_map hxs.nodup_hw hi hr (hhw.trans heq.symm)
  have hcollects := hrs.collects s hs
  constructor
  · have hname := hcollects.name_eq
    obtain ⟨i, hfind, hname⟩ := Option.map_eq_some_iff.mp hname
    have hhw : i.hw = s.hw := by simpa using List.find?_some hfind
    have hi : i = r := honly i (List.mem_of_find?_eq_some hfind) hhw
    rw [← hname, hi]
  · intro family a
    rw [hcollects.mem_iff]
    constructor
    · rintro ⟨i, hi, hhw, ha⟩
      rwa [← honly i hi hhw]
    · exact fun ha ↦ ⟨r, hr, heq, ha⟩

/-! ## The accumulator -/

/-- What the first loop has merged so far. -/
structure Accumulates (interfaces : List (Interface Name Hw Addr))
    (temp : List (Hw × Interface Name Hw Addr)) : Prop where
  nodup_keys : (temp.map Prod.fst).Nodup
  mem_keys_iff : ∀ hw, hw ∈ temp.map Prod.fst ↔ hw ∈ interfaces.map (·.hw)
  collects : ∀ entry ∈ temp, Collects interfaces entry.1 entry.2

section Step

variable {interfaces : List (Interface Name Hw Addr)} {temp : List (Hw × Interface Name Hw Addr)}
  {interface intf : Interface Name Hw Addr} {hw : Hw}

/-- An interface with another hardware address adds nothing. -/
theorem Collects.append_of_ne (h : Collects interfaces hw intf) (hne : interface.hw ≠ hw) :
    Collects (interfaces ++ [interface]) hw intf where
  hw_eq := h.hw_eq
  name_eq := by
    rw [List.find?_append, Option.map_or, h.name_eq]
    rfl
  mem_iff family a := by
    rw [h.mem_iff]
    simp [hne]

/-- One with the same hardware address adds its addresses. -/
theorem Collects.append_self (h : Collects interfaces interface.hw intf) :
    Collects (interfaces ++ [interface]) interface.hw (intf.addAddresses interface) where
  hw_eq := h.hw_eq
  name_eq := by
    rw [List.find?_append, Option.map_or, h.name_eq]
    rfl
  mem_iff family a := by
    have hmem := h.mem_iff family a
    cases family <;>
      simp_all [Interface.addresses, Interface.addAddresses, or_and_right, exists_or]

/-- The first one with a hardware address is what is collected of it. -/
theorem collects_first (h : interface.hw ∉ interfaces.map (·.hw)) :
    Collects (interfaces ++ [interface]) interface.hw interface where
  hw_eq := rfl
  name_eq := by
    have hnone : interfaces.find? (·.hw = interface.hw) = none := by
      rw [List.find?_eq_none]
      intro i hi heq
      exact h (List.mem_map.mpr ⟨i, hi, of_decide_eq_true heq⟩)
    rw [List.find?_append, hnone]
    simp
  mem_iff family a := by
    constructor
    · exact fun ha ↦ ⟨interface, by simp, rfl, ha⟩
    · rintro ⟨i, hi, hhw, ha⟩
      rcases List.mem_append.mp hi with hi | hi
      · exact absurd (List.mem_map.mpr ⟨i, hi, hhw⟩) h
      · rwa [← List.mem_singleton.mp hi]

/-- One pass keeps the accumulator right. -/
theorem Accumulates.mergeInterface (h : Accumulates interfaces temp)
    (interface : Interface Name Hw Addr) :
    Accumulates (interfaces ++ [interface]) (mergeInterface temp interface) := by
  have hkeys : (interfaces ++ [interface]).map (·.hw) = interfaces.map (·.hw) ++ [interface.hw] :=
    List.map_append
  rw [GuestAgent.mergeInterface]
  split
  · rename_i hmem
    have hfst : (temp.map fun entry ↦ if entry.1 = interface.hw then
        (interface.hw, entry.2.addAddresses interface) else entry).map Prod.fst =
          temp.map Prod.fst := by
      rw [List.map_map]
      refine List.map_congr_left fun entry _ ↦ ?_
      rw [Function.comp_apply]
      split
      · rename_i heq
        exact heq.symm
      · rfl
    refine ⟨by rw [hfst]; exact h.nodup_keys, fun hw ↦ ?_, ?_⟩
    · rw [hfst, h.mem_keys_iff, hkeys, List.mem_append, List.mem_singleton]
      refine (or_iff_left_of_imp ?_).symm
      rintro rfl
      exact (h.mem_keys_iff _).mp hmem
    · rw [List.forall_mem_map]
      intro entry hentry
      have hcollects := h.collects entry hentry
      split
      · rename_i heq
        rw [heq] at hcollects
        exact hcollects.append_self
      · rename_i hne
        exact hcollects.append_of_ne (Ne.symm hne)
  · rename_i hmem
    have hnew : interface.hw ∉ interfaces.map (·.hw) := fun hin ↦ hmem ((h.mem_keys_iff _).mpr hin)
    refine ⟨?_, fun hw ↦ ?_, ?_⟩
    · rw [List.map_append, List.map_singleton, ← List.concat_eq_append]
      exact h.nodup_keys.concat hmem
    · rw [List.map_append, List.map_singleton, hkeys, List.mem_append, List.mem_append,
        h.mem_keys_iff]
    · rw [List.forall_mem_append, List.forall_mem_singleton]
      refine ⟨fun entry hentry ↦ (h.collects entry hentry).append_of_ne ?_, collects_first hnew⟩
      intro heq
      exact hmem (List.mem_map.mpr ⟨entry, hentry, heq.symm⟩)

theorem accumulates_foldl (interfaces : List (Interface Name Hw Addr)) :
    Accumulates interfaces (interfaces.foldl GuestAgent.mergeInterface []) := by
  induction interfaces using List.reverseRecOn with
  | nil => exact ⟨List.nodup_nil, fun hw ↦ Iff.rfl, nofun⟩
  | append_singleton interfaces interface ih =>
    rw [List.foldl_append]
    exact ih.mergeInterface interface

end Step

/-- The result is the interfaces merged, whatever the order of dicts and sets. -/
theorem merges_mergeDuplicateInterfaces (order : HashOrder Name Hw Addr)
    (interfaces : List (Interface Name Hw Addr)) :
    Merges interfaces (mergeDuplicateInterfaces order interfaces) := by
  have hacc := accumulates_foldl interfaces
  rw [mergeDuplicateInterfaces]
  generalize interfaces.foldl mergeInterface [] = temp at hacc
  have hperm := order.itervalues_perm temp
  -- the hardware addresses of the values are the keys
  have hhw : ((order.itervalues temp).map (·.hw)).Perm (temp.map Prod.fst) := by
    have hvalues := hperm.map (·.hw)
    rw [List.map_map] at hvalues
    refine hvalues.trans (.of_eq (List.map_congr_left fun entry hentry ↦ ?_))
    exact (hacc.collects entry hentry).hw_eq
  have hcollects : ∀ intf ∈ order.itervalues temp, Collects interfaces intf.hw intf := by
    intro intf hintf
    obtain ⟨entry, hentry, rfl⟩ := List.mem_map.mp (hperm.mem_iff.mp hintf)
    have h := hacc.collects entry hentry
    rwa [h.hw_eq]
  refine ⟨?_, fun hw ↦ ?_, ?_, ?_⟩
  · rw [List.map_map]
    exact hhw.nodup_iff.mpr hacc.nodup_keys
  · rw [List.map_map]
    exact hhw.mem_iff.trans (hacc.mem_keys_iff hw)
  · rw [List.forall_mem_map]
    intro intf hintf
    have h := hcollects intf hintf
    refine ⟨rfl, h.name_eq, fun family a ↦ ?_⟩
    rw [← h.mem_iff]
    cases family <;> exact order.mem_listSet _ a
  · rw [List.forall_mem_map]
    intro intf _ family
    cases family <;> exact order.nodup_listSet _

/-- **Interfaces are merged by hardware address**: one for each, with the name of the first and all
addresses once.  The addresses do not depend on the order, and merging again changes nothing. -/
theorem mergeDuplicateInterfaces_correct (order order' : HashOrder Name Hw Addr)
    (interfaces : List (Interface Name Hw Addr)) :
    Merges interfaces (mergeDuplicateInterfaces order interfaces) ∧
    (∀ interfaces', interfaces.Perm interfaces' →
      ∀ r ∈ mergeDuplicateInterfaces order interfaces,
      ∀ s ∈ mergeDuplicateInterfaces order' interfaces', r.hw = s.hw →
      ∀ family a, a ∈ r.addresses family ↔ a ∈ s.addresses family) ∧
    Merges (mergeDuplicateInterfaces order interfaces)
      (mergeDuplicateInterfaces order' (mergeDuplicateInterfaces order interfaces)) ∧
    ∀ r ∈ mergeDuplicateInterfaces order interfaces,
      ∀ s ∈ mergeDuplicateInterfaces order' (mergeDuplicateInterfaces order interfaces),
      r.hw = s.hw →
      s.name = r.name ∧ ∀ family a, a ∈ s.addresses family ↔ a ∈ r.addresses family := by
  have hmerges := merges_mergeDuplicateInterfaces order interfaces
  have hagain := merges_mergeDuplicateInterfaces order' (mergeDuplicateInterfaces order interfaces)
  refine ⟨hmerges, fun interfaces' hperm r hr s hs heq ↦ ?_, hagain, fun r hr s hs heq ↦ ?_⟩
  · exact hmerges.perm (merges_mergeDuplicateInterfaces order' interfaces') hperm hr hs heq
  · exact hmerges.again hagain hr hs heq

end Merge

/-- Two interfaces of one adapter, in both orders. -/
theorem mergeDuplicateInterfaces_correct_two :
    ∀ family a, a ∈ (⟨0, [1, 2], [3], 7⟩ : Interface ℕ ℕ ℕ).addresses family ↔
      a ∈ (⟨1, [2, 1], [3], 7⟩ : Interface ℕ ℕ ℕ).addresses family :=
  (mergeDuplicateInterfaces_correct .insertion .insertion
    [⟨0, [1], [3], 7⟩, ⟨1, [2], [], 7⟩]).2.1 [⟨1, [2], [], 7⟩, ⟨0, [1], [3], 7⟩]
    (.swap _ _ _) ⟨0, [1, 2], [3], 7⟩ (.head _) ⟨1, [2, 1], [3], 7⟩ (.head _) rfl

end GuestAgent
