import Mathlib.Data.List.Sort
import Mathlib.Order.Basic

/-!
# Ordered maps

Maps that are iterated in the order of their keys.  The map itself is `Std.ExtTreeMap`; here is what
a program does with one besides looking keys up: it takes the entries of a range of keys, removes
the keys of a range one by one, and asks for the last entry.

Everything is said through `toList`, the entries in order, because that is what an iteration sees:
`toList_insert` splits it at the new key, `toList_removeAll` and `range` filter it.
-/

/-- A map iterated in the order of its keys. -/
abbrev BTreeMap (κ ν : Type*) [Ord κ] := Std.ExtTreeMap κ ν compare

namespace BTreeMap

/-! ## Ranges -/

/-- One end of a range. -/
inductive Bound (κ : Type*) where
  | included (key : κ)
  | excluded (key : κ)
  | unbounded
  deriving DecidableEq, Repr

/-- A range of keys, by its two ends. -/
structure Range (κ : Type*) where
  lower : Bound κ
  upper : Bound κ
  deriving DecidableEq, Repr

variable {κ ν : Type*} [Ord κ]

/-- The key is not below the lower end. -/
def Bound.admitsAbove : Bound κ → κ → Bool
  | included lo, k => (compare lo k).isLE
  | excluded lo, k => compare lo k == .lt
  | unbounded, _ => true

/-- The key is not above the upper end. -/
def Bound.admitsBelow : Bound κ → κ → Bool
  | included hi, k => (compare k hi).isLE
  | excluded hi, k => compare k hi == .lt
  | unbounded, _ => true

def Range.contains (r : Range κ) (k : κ) : Bool := r.lower.admitsAbove k && r.upper.admitsBelow k

/-- The ends are in order; a range whose ends are equal must not exclude both. -/
def Range.isOrdered : Range κ → Bool
  | ⟨.included lo, .included hi⟩ => (compare lo hi).isLE
  | ⟨.included lo, .excluded hi⟩ => (compare lo hi).isLE
  | ⟨.excluded lo, .included hi⟩ => (compare lo hi).isLE
  | ⟨.excluded lo, .excluded hi⟩ => compare lo hi == .lt
  | ⟨.unbounded, _⟩ => true
  | ⟨_, .unbounded⟩ => true

/-! ## Operations -/

section Operations

variable [Std.TransOrd κ]

/-- The entries of a range, in order; asking for a range whose ends are not in order panics. -/
def range (m : BTreeMap κ ν) (r : Range κ) : Option (List (κ × ν)) :=
  if r.isOrdered then some (m.toList.filter fun e => r.contains e.1) else none

/-- The last entry. -/
def nextBack (m : BTreeMap κ ν) : Option (κ × ν) := m.toList.getLast?

/-- Remove the keys of a list, one after the other. -/
def removeAll (m : BTreeMap κ ν) (keys : List κ) : BTreeMap κ ν := keys.foldl Std.ExtTreeMap.erase m

end Operations

/-! ## The entries in order -/

section Entries

variable [Std.TransOrd κ] {m : BTreeMap κ ν}

lemma compare_swap_of_lt {a b : κ} (h : compare a b = .lt) : compare b a = .gt := by
  have hswap : compare b a = (compare a b).swap := Std.OrientedCmp.eq_swap
  rw [hswap, h]
  rfl

lemma nodup_of_sorted {l : List (κ × ν)} (h : l.Pairwise fun a b => compare a.1 b.1 = .lt) :
    l.Nodup := by
  refine h.imp fun {a b} hab => ?_
  rintro rfl
  have hself : compare a.1 a.1 = .eq := Std.ReflCmp.compare_self
  rw [hself] at hab
  cases hab

variable [Std.LawfulEqOrd κ]

/-- A sorted list with the entries of the map is the list of its entries. -/
lemma toList_eq_of_sorted {l : List (κ × ν)}
    (hsorted : l.Pairwise fun a b => compare a.1 b.1 = .lt)
    (hmem : ∀ k v, (k, v) ∈ l ↔ m[k]? = some v) : m.toList = l := by
  have hordered : m.toList.Pairwise fun a b => compare a.1 b.1 = .lt :=
    Std.ExtTreeMap.ordered_keys_toList
  have hperm : m.toList.Perm l := by
    refine (List.perm_ext_iff_of_nodup (nodup_of_sorted hordered) (nodup_of_sorted hsorted)).mpr ?_
    rintro ⟨k, v⟩
    rw [hmem, Std.ExtTreeMap.mem_toList_iff_getElem?_eq_some]
  refine hperm.eq_of_pairwise ?_ hordered hsorted
  intro a b _ _ hab hba
  rw [compare_swap_of_lt hab] at hba
  cases hba

lemma getElem?_removeAll {keys : List κ} {m : BTreeMap κ ν} {k : κ} {v : ν} :
    (m.removeAll keys)[k]? = some v ↔ k ∉ keys ∧ m[k]? = some v := by
  induction keys generalizing m with
  | nil => simp [removeAll]
  | cons key keys ih =>
      have hcons : m.removeAll (key :: keys) = removeAll (m.erase key) keys := rfl
      rw [hcons, ih, Std.ExtTreeMap.getElem?_erase, List.mem_cons, not_or]
      by_cases hkey : key = k
      · subst hkey
        simp [Std.ReflCmp.compare_self]
      · have hne : compare key k ≠ .eq := fun h => hkey (Std.compare_eq_iff_eq.mp h)
        simp [hne, Ne.symm hkey]

/-- Removing the keys that have a property leaves the entries of the others. -/
lemma toList_removeAll (p : κ → Bool) :
    (m.removeAll ((m.toList.filter fun e => p e.1).map Prod.fst)).toList
      = m.toList.filter fun e => !p e.1 := by
  refine toList_eq_of_sorted (Std.ExtTreeMap.ordered_keys_toList.filter _) fun k v => ?_
  have hkeys : k ∈ (m.toList.filter fun e => p e.1).map Prod.fst ↔
      (∃ w, m[k]? = some w) ∧ p k = true := by
    simp
  rw [getElem?_removeAll, hkeys, List.mem_filter, Std.ExtTreeMap.mem_toList_iff_getElem?_eq_some]
  constructor
  · rintro ⟨hv, hp⟩
    refine ⟨fun h => ?_, hv⟩
    simp [h.2] at hp
  · rintro ⟨h, hv⟩
    refine ⟨hv, ?_⟩
    simpa using fun hp => h ⟨⟨v, hv⟩, hp⟩

/-- Inserting splits the entries at the key, an entry with this key being replaced. -/
lemma toList_insert (m : BTreeMap κ ν) (k : κ) (v : ν) :
    (m.insert k v).toList = (m.toList.filter fun e => compare e.1 k == .lt)
      ++ (k, v) :: m.toList.filter fun e => compare k e.1 == .lt := by
  have hordered : m.toList.Pairwise fun a b => compare a.1 b.1 = .lt :=
    Std.ExtTreeMap.ordered_keys_toList
  refine toList_eq_of_sorted ?_ fun k' v' => ?_
  · refine List.pairwise_append.mpr ⟨hordered.filter _, List.pairwise_cons.mpr ⟨?_, ?_⟩, ?_⟩
    · intro e he
      simpa using (List.mem_filter.mp he).2
    · exact hordered.filter _
    · intro a ha b hb
      have hak : compare a.1 k = .lt := by simpa using (List.mem_filter.mp ha).2
      rcases List.mem_cons.mp hb with rfl | hb
      · exact hak
      · have hkb : compare k b.1 = .lt := by simpa using (List.mem_filter.mp hb).2
        exact Std.TransCmp.lt_trans hak hkb
  · rw [Std.ExtTreeMap.getElem?_insert]
    simp only [List.mem_append, List.mem_filter, List.mem_cons, Prod.mk.injEq,
      Std.ExtTreeMap.mem_toList_iff_getElem?_eq_some, beq_iff_eq]
    have hswap : compare k' k = (compare k k').swap := Std.OrientedCmp.eq_swap
    by_cases hk : k = k'
    · subst hk
      simp [Std.ReflCmp.compare_self, eq_comm]
    · have hne : compare k k' ≠ .eq := fun h => hk (Std.compare_eq_iff_eq.mp h)
      rw [if_neg hne, hswap]
      cases h : compare k k' with
      | lt => simp [Ne.symm hk]
      | eq => exact absurd h hne
      | gt => simp [Ne.symm hk]

end Entries

end BTreeMap
