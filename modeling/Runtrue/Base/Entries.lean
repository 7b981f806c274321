import Runtrue.Base.TreeMap

/-!
# The entries of a map under an insertion

What `toList` gives after an insertion, as a list up to order, and what becomes of a list selected from the
entries by `filterMap`: the insertion of a new key adds at most one element (`filterMap_insert_fresh`), and a
value that is replaced by one that selects the same or nothing adds none (`filterMap_insert_subperm`).
-/

namespace BTreeMap

open List

variable {K V β : Type} [Ord K] [Std.TransOrd K] [Std.LawfulEqOrd K] [DecidableEq K] {m : BTreeMap K V} {k : K}
  {v : V}

theorem toList_perm_cons_erase (hk : m[k]? = some v) : m.toList.Perm ((k, v) :: (m.erase k).toList) := by
  have h := toList_insert_perm m k v
  rwa [insert_get_self hk] at h

theorem mem_toList_erase {p : K × V} (h : p ∈ (m.erase k).toList) : p ∈ m.toList ∧ p.1 ≠ k := by
  rw [mem_toList, get_erase] at h
  split at h
  · cases h
  · rename_i hne
    exact ⟨mem_toList.mpr h, Ne.symm hne⟩

theorem filterMap_insert_subperm {f g : K × V → Option β} {v v' : V} (hk : m[k]? = some v)
    (hother : ∀ p ∈ m.toList, p.1 ≠ k → g p = f p) (hv : g (k, v') = f (k, v) ∨ g (k, v') = none) :
    ((m.insert k v').toList.filterMap g).Subperm (m.toList.filterMap f) := by
  have hrest : (m.erase k).toList.filterMap g = (m.erase k).toList.filterMap f :=
    filterMap_congr fun p hp => hother p (mem_toList_erase hp).1 (mem_toList_erase hp).2
  have hnew := (toList_insert_perm m k v').filterMap g
  have hold := (toList_perm_cons_erase hk).filterMap f
  rw [filterMap_cons, hrest] at hnew
  rw [filterMap_cons] at hold
  refine hnew.subperm.trans (Subperm.trans ?_ hold.symm.subperm)
  rcases hv with hv | hv
  · rw [hv]
  · rw [hv]
    cases f (k, v) with
    | none => exact (Sublist.refl _).subperm
    | some b => exact (sublist_cons_self b _).subperm

theorem filterMap_insert_fresh {f g : K × V → Option β} (hk : m[k]? = none) (hother : ∀ p ∈ m.toList, g p = f p) :
    ((m.insert k v).toList.filterMap g).Perm ((g (k, v)).toList ++ m.toList.filterMap f) := by
  have hnew := (toList_insert_perm m k v).filterMap g
  rw [filterMap_cons, erase_of_get_none hk, filterMap_congr hother] at hnew
  cases hg : g (k, v) with
  | none => simpa [hg] using hnew
  | some => simpa [hg] using hnew

end BTreeMap
