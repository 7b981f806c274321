import Mathlib
import Std.Data.ExtTreeMap
import Std.Data.ExtTreeSet

/-!
# Ordered maps and sets, with sums and maxima over their entries

`BTreeMap` and `BTreeSet` are the standard library's extensional ordered map and set. `sumBy w m` adds the
weight of every entry. An update of one key changes a sum by the weights at that key (`sumBy_update`,
`sumBy_insert_new`), also when the weight function itself changes there, which is how a total kept
incrementally is compared with the total over the entries it stands for.
-/

/-- Finite maps iterated in key order. -/
abbrev BTreeMap (K V : Type) [Ord K] := Std.ExtTreeMap K V

namespace BTreeMap

open Std.ExtTreeMap
open List (map_cons sum_cons)

variable {K V U : Type} [Ord K] [Std.TransOrd K] [Std.LawfulEqOrd K] [DecidableEq K]

@[simp, grind =] theorem get_insert (m : BTreeMap K V) (k a : K) (v : V) :
    (m.insert k v)[a]? = if k = a then some v else m[a]? := by
  rw [getElem?_insert]
  simp

theorem get_insert_self (m : BTreeMap K V) (k : K) (v : V) : (m.insert k v)[k]? = some v := by
  rw [get_insert, if_pos rfl]

variable {m : BTreeMap K V}

theorem get_insert_eq_some {k a : K} {v x : V} :
    (m.insert k v)[a]? = some x ↔ (k = a ∧ v = x) ∨ (k ≠ a ∧ m[a]? = some x) := by
  rw [get_insert]
  by_cases h : k = a
  · simp [h]
  · simp [h]

@[simp, grind =] theorem get_erase (m : BTreeMap K V) (k a : K) : (m.erase k)[a]? = if k = a then none else m[a]? := by
  rw [getElem?_erase]
  simp

variable {k : K}

omit [Std.LawfulEqOrd K] [DecidableEq K] in
theorem get_of_not_contains (h : m.contains k = false) : m[k]? = none := by
  rw [getElem?_eq_none_iff, ← contains_iff_mem, h]
  exact Bool.false_ne_true

omit [DecidableEq K] in
theorem nodup_toList (m : BTreeMap K V) : m.toList.Nodup := by
  refine List.Pairwise.imp ?_ distinct_keys_toList
  rintro _ _ hne rfl
  exact hne Std.ReflCmp.compare_self

omit [DecidableEq K] in
theorem mem_toList {p : K × V} : p ∈ m.toList ↔ m[p.1]? = some p.2 :=
  mem_toList_iff_getElem?_eq_some

def values (m : BTreeMap K V) : List V := m.toList.map Prod.snd

variable {v : V}

omit [DecidableEq K] in
theorem mem_values : v ∈ m.values ↔ ∃ k : K, m[k]? = some v := by
  rw [values, List.mem_map]
  constructor
  · rintro ⟨p, hp, rfl⟩
    exact ⟨p.1, mem_toList.mp hp⟩
  · rintro ⟨k, hk⟩
    exact ⟨(k, v), mem_toList.mpr hk, rfl⟩

theorem toList_insert_perm (m : BTreeMap K V) (k : K) (v : V) :
    (m.insert k v).toList.Perm ((k, v) :: (m.erase k).toList) := by
  refine (List.perm_ext_iff_of_nodup (nodup_toList _) ?_).mpr ?_
  · refine List.nodup_cons.mpr ⟨fun h => ?_, nodup_toList _⟩
    simp [mem_toList] at h
  · rintro ⟨a, _⟩
    rw [List.mem_cons, mem_toList, mem_toList, get_insert, get_erase, Prod.mk.injEq]
    by_cases hka : k = a
    · simp [hka, eq_comm]
    · simp [hka, Ne.symm hka]

theorem insert_get_self (h : m[k]? = some v) : m.insert k v = m := by
  refine ext_getElem? fun a => ?_
  rw [get_insert]
  split
  · rename_i hka
    rw [← hka, h]
  · rfl

theorem insert_insert (m : BTreeMap K V) (k : K) (v v' : V) : (m.insert k v).insert k v' = m.insert k v' := by
  refine ext_getElem? fun a => ?_
  simp only [get_insert]
  split <;> rfl

theorem erase_of_get_none (h : m[k]? = none) : m.erase k = m := by
  refine ext_getElem? fun a => ?_
  rw [get_erase]
  split
  · rename_i hka
    rw [← hka, h]
  · rfl

theorem get_insert_fresh {k a : K} {v x : V} (hk : m[k]? = none) (ha : m[a]? = some x) :
    (m.insert k v)[a]? = some x := by
  rw [get_insert, if_neg, ha]
  rintro rfl
  rw [hk] at ha
  cases ha

omit [Std.LawfulEqOrd K] [DecidableEq K] in
theorem size_insert_fresh (hk : m[k]? = none) : (m.insert k v).size = m.size + 1 := by
  rw [size_insert, contains_eq_isSome_getElem?, hk]
  rfl

omit [Std.LawfulEqOrd K] [DecidableEq K] in
theorem size_insert_present {v x : V} (hk : m[k]? = some x) : (m.insert k v).size = m.size := by
  rw [size_insert, contains_eq_isSome_getElem?, hk]
  rfl

theorem map_toList_insert_perm {β : Type} {v v' : V} (f : K × V → β) (hk : m[k]? = some v)
    (hf : f (k, v') = f (k, v)) : ((m.insert k v').toList.map f).Perm (m.toList.map f) := by
  have hold := (toList_insert_perm m k v).map f
  rw [insert_get_self hk, map_cons, ← hf] at hold
  exact ((toList_insert_perm m k v').map f).trans hold.symm

/-! ### Sums -/

theorem sum_map_ite {α : Type} (p : α → Bool) (w : α → Nat) (l : List α) :
    (l.map fun x => if p x then w x else 0).sum = ((l.filter p).map w).sum := by
  induction l with
  | nil => rfl
  | cons x l ih =>
    rw [map_cons, sum_cons, ih, List.filter_cons]
    split
    · rw [map_cons, sum_cons]
    · exact zero_add _

theorem sum_map_getD {α β : Type} (k : α → Option β) (w : β → Nat) (l : List α) :
    (l.map fun x => ((k x).map w).getD 0).sum = ((l.filterMap k).map w).sum := by
  induction l with
  | nil => rfl
  | cons x l ih =>
    rw [map_cons, sum_cons, ih, List.filterMap_cons]
    cases k x with
    | none => exact zero_add _
    | some => rfl

/-- The total weight of a map's entries. -/
def sumBy (w : K → V → Nat) (m : BTreeMap K V) : Nat := (m.toList.map fun p => w p.1 p.2).sum

omit [Std.LawfulEqOrd K] [DecidableEq K] in
@[simp] theorem sumBy_empty (w : K → V → Nat) : sumBy w (∅ : BTreeMap K V) = 0 := by
  rw [sumBy, toList_eq_nil_iff.mpr rfl]
  rfl

variable {w w' : K → V → Nat}

omit [DecidableEq K] in
theorem sumBy_congr (h : ∀ k v, m[k]? = some v → w k v = w' k v) : sumBy w m = sumBy w' m := by
  unfold sumBy
  congr 1
  exact List.map_congr_left fun p hp => h p.1 p.2 (mem_toList.mp hp)

omit [Std.LawfulEqOrd K] [DecidableEq K] in
theorem sumBy_add (w w' : K → V → Nat) (m : BTreeMap K V) :
    sumBy (fun k v => w k v + w' k v) m = sumBy w m + sumBy w' m :=
  List.sum_map_add

theorem sumBy_insert (w : K → V → Nat) (m : BTreeMap K V) (k : K) (v : V) :
    sumBy w (m.insert k v) = w k v + sumBy w (m.erase k) := by
  unfold sumBy
  rw [((toList_insert_perm m k v).map _).sum_eq, map_cons, sum_cons]

theorem sumBy_erase_add (h : m[k]? = some v) : w k v + sumBy w (m.erase k) = sumBy w m := by
  rw [← sumBy_insert, insert_get_self h]

theorem sumBy_update {v v' : V} (h : m[k]? = some v) (hw : ∀ a x, a ≠ k → m[a]? = some x → w' a x = w a x) :
    sumBy w' (m.insert k v') + w k v = sumBy w m + w' k v' := by
  have hrest : sumBy w' (m.erase k) = sumBy w (m.erase k) := by
    refine sumBy_congr fun a x hax => ?_
    rw [get_erase] at hax
    split at hax
    · cases hax
    · rename_i hne
      exact hw a x (Ne.symm hne) hax
  rw [sumBy_insert, hrest, ← sumBy_erase_add h]
  omega

theorem sumBy_insert_new (h : m[k]? = none) (hw : ∀ a x, a ≠ k → m[a]? = some x → w' a x = w a x) :
    sumBy w' (m.insert k v) = sumBy w m + w' k v := by
  rw [sumBy_insert, erase_of_get_none h, add_comm]
  congr 1
  refine sumBy_congr fun a x hax => hw a x ?_ hax
  rintro rfl
  rw [h] at hax
  cases hax

omit [DecidableEq K] in
theorem sumBy_le_sumBy (h : ∀ k v, m[k]? = some v → w k v ≤ w' k v) : sumBy w m ≤ sumBy w' m :=
  List.sum_le_sum fun p hp => h p.1 p.2 (mem_toList.mp hp)

omit [DecidableEq K] in
theorem sumBy_eq_zero (h : ∀ k v, m[k]? = some v → w k v = 0) : sumBy w m = 0 := by
  unfold sumBy
  refine List.sum_eq_zero fun n hn => ?_
  obtain ⟨p, hp, rfl⟩ := List.mem_map.mp hn
  exact h p.1 p.2 (mem_toList.mp hp)

/-! ### Maxima -/

/-- The largest weight of a map's entries, zero if there are none. -/
def maxBy (w : K → V → Nat) (m : BTreeMap K V) : Nat := (m.toList.map fun p => w p.1 p.2).foldr max 0

theorem maxBy_insert (w : K → V → Nat) (m : BTreeMap K V) (k : K) (v : V) :
    maxBy w (m.insert k v) = max (w k v) (maxBy w (m.erase k)) := by
  unfold maxBy
  rw [((toList_insert_perm m k v).map _).foldr_eq, map_cons, List.foldr_cons]

theorem maxBy_insert_new (h : m[k]? = none) : maxBy w (m.insert k v) = max (w k v) (maxBy w m) := by
  rw [maxBy_insert, erase_of_get_none h]

theorem maxBy_update {v v' : V} (h : m[k]? = some v) (hw : w k v' = w k v) : maxBy w (m.insert k v') = maxBy w m :=
  (map_toList_insert_perm (fun p => w p.1 p.2) h hw).foldr_eq 0

theorem le_maxBy (h : m[k]? = some v) : w k v ≤ maxBy w m := by
  rw [← insert_get_self h, maxBy_insert]
  exact Nat.le_max_left _ _

end BTreeMap

/-- Finite sets iterated in order. -/
abbrev BTreeSet (K : Type) [Ord K] := Std.ExtTreeSet K

namespace BTreeSet

variable {K : Type} [Ord K] [Std.TransOrd K] [Std.LawfulEqOrd K]

def isSubset (s t : BTreeSet K) : Bool := s.toList.all fun k => t.contains k

theorem isSubset_iff {s t : BTreeSet K} : isSubset s t = true ↔ ∀ k ∈ s, k ∈ t := by
  simp only [isSubset, List.all_eq_true, Std.ExtTreeSet.mem_toList, Std.ExtTreeSet.contains_iff_mem]

theorem isSubset_trans {s t u : BTreeSet K} (hst : isSubset s t = true) (htu : isSubset t u = true) :
    isSubset s u = true :=
  isSubset_iff.mpr fun k hk => isSubset_iff.mp htu k (isSubset_iff.mp hst k hk)

end BTreeSet
