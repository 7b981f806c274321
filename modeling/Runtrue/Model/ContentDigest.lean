import Mathlib
import Std.Data.ExtTreeMap

/-!
# Content digests

A `ContentDigest` of the source is a text `sha256:` followed by 64 lower-case hexadecimal digits; no
other text parses. These texts are the 256-bit words, and the order of the texts is the order of the
words, so the digest is modelled as its word.
-/

namespace Runtrue

structure ContentDigest where
  bits : BitVec 256
deriving DecidableEq

instance : Ord ContentDigest where
  compare a b := compare a.bits.toNat b.bits.toNat

instance : Std.TransOrd ContentDigest where
  eq_swap {a b} := @Std.OrientedCmp.eq_swap Nat compare _ a.bits.toNat b.bits.toNat
  isLE_trans {a b c} :=
    @Std.TransCmp.isLE_trans Nat compare _ a.bits.toNat b.bits.toNat c.bits.toNat

instance : Std.LawfulEqOrd ContentDigest where
  eq_of_compare {a b} h := by
    have hbits : a.bits.toNat = b.bits.toNat := Std.LawfulEqOrd.eq_of_compare h
    cases a
    cases b
    simp_all [BitVec.toNat_inj]

end Runtrue
