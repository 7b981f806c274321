import Mathlib

/-!
# Double-precision numbers

A double is its 64 bits: a sign, eleven bits of exponent and 52 of fraction. `toRat` is the number that a
finite one stands for; the two zeros are different doubles with the same value.
-/

structure F64 where
  bits : BitVec 64
deriving DecidableEq

namespace F64

def isNegative (x : F64) : Bool := x.bits.msb

def exponent (x : F64) : Nat := x.bits.toNat / 2 ^ 52 % 2 ^ 11

def fraction (x : F64) : Nat := x.bits.toNat % 2 ^ 52

def isFinite (x : F64) : Bool := x.exponent != 2047

/-- The value of a finite double. An exponent of zero has no hidden bit. -/
def toRat (x : F64) : ℚ :=
  let magnitude : ℚ :=
    if x.exponent = 0 then x.fraction / 2 ^ 1074
    else (2 ^ 52 + x.fraction) * 2 ^ x.exponent / 2 ^ 1075
  if x.isNegative then -magnitude else magnitude

def zero : F64 := ⟨0#64⟩

def negZero : F64 := ⟨0x8000000000000000#64⟩

/-- The comparison `value == 0.0`. -/
def isZero (x : F64) : Bool := x = zero || x = negZero

def isNaN (x : F64) : Bool := x.exponent == 2047 && x.fraction != 0

/-- The comparison `==`, which tells the zeros not apart and a NaN from everything. -/
def eqv (x y : F64) : Bool := (x = y && !x.isNaN) || (x.isZero && y.isZero)

theorem toRat_of_isZero {x : F64} (h : x.isZero = true) : x.toRat = 0 := by
  simp only [isZero, Bool.or_eq_true, decide_eq_true_eq] at h
  rcases h with rfl | rfl
  · simp [toRat, exponent, fraction, zero]
  · simp [toRat, exponent, fraction, negZero]

end F64
