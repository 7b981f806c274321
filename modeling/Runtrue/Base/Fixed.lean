import Mathlib

/-!
# Fixed-width arithmetic

Checked and saturating addition and subtraction on `BitVec w`, and checked conversion, each characterised
by the `toNat` of its result, so that a proof about machine counters is a proof about natural numbers: a
checked operation succeeds exactly when its result is the true one, a saturating one is the true one cut
off at the ends of the range.
-/

abbrev U32 := BitVec 32
abbrev U64 := BitVec 64

/-- The order of the keys of a map over `U64`. -/
instance U64.transOrd : Std.TransOrd U64 := inferInstance

namespace Fixed

open BitVec

variable {w : Nat} {a b c : BitVec w}

def checkedAdd (a b : BitVec w) : Option (BitVec w) :=
  if a.toNat + b.toNat < 2 ^ w then some (a + b) else none

def checkedSub (a b : BitVec w) : Option (BitVec w) :=
  if b.toNat ≤ a.toNat then some (a - b) else none

/-- The conversion of a number that fits. -/
def tryFrom (w n : Nat) : Option (BitVec w) := if n < 2 ^ w then some (BitVec.ofNat w n) else none

def satAdd (a b : BitVec w) : BitVec w :=
  if a.toNat + b.toNat < 2 ^ w then a + b else BitVec.allOnes w

def satSub (a b : BitVec w) : BitVec w :=
  if b.toNat ≤ a.toNat then a - b else 0

theorem toNat_add_of_lt (h : a.toNat + b.toNat < 2 ^ w) : (a + b).toNat = a.toNat + b.toNat := by
  rw [toNat_add, Nat.mod_eq_of_lt h]

theorem checkedAdd_eq_some : checkedAdd a b = some c ↔ c.toNat = a.toNat + b.toNat := by
  unfold checkedAdd
  split
  · rename_i h
    rw [Option.some.injEq, ← toNat_add_of_lt h, toNat_inj, eq_comm]
  · constructor
    · intro hc
      cases hc
    · intro _
      omega

theorem eq_allOnes_of_checkedAdd {a : U64} (h : checkedAdd a 1 = none) : a = allOnes 64 := by
  refine eq_of_toNat_eq ?_
  have hone : (1 : U64).toNat = 1 := rfl
  simp only [checkedAdd, ite_eq_right_iff, reduceCtorEq, imp_false, toNat_allOnes, hone] at h ⊢
  omega

theorem checkedSub_eq_some : checkedSub a b = some c ↔ c.toNat + b.toNat = a.toNat := by
  unfold checkedSub
  split
  · rename_i h
    have hsub : (a - b).toNat = a.toNat - b.toNat := toNat_sub_of_le (le_def.mpr h)
    rw [Option.some.injEq, ← toNat_inj, hsub]
    omega
  · constructor
    · intro hc
      cases hc
    · intro _
      omega

theorem tryFrom_eq_some {n : Nat} : tryFrom w n = some c ↔ c.toNat = n := by
  unfold tryFrom
  split
  · rename_i h
    rw [Option.some.injEq, ← toNat_inj, toNat_ofNat, Nat.mod_eq_of_lt h, eq_comm]
  · constructor
    · intro hc
      cases hc
    · intro _
      omega

theorem toNat_satAdd : (satAdd a b).toNat = min (a.toNat + b.toNat) (2 ^ w - 1) := by
  unfold satAdd
  split
  · rename_i h
    rw [toNat_add_of_lt h]
    omega
  · rw [toNat_allOnes]
    omega

@[simp] theorem toNat_satSub : (satSub a b).toNat = a.toNat - b.toNat := by
  unfold satSub
  split
  · rename_i h
    exact toNat_sub_of_le (le_def.mpr h)
  · simp
    omega

end Fixed
