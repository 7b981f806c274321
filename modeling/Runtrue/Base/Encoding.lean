import Runtrue.Base.Text

/-!
# Byte strings that decode in one way

The parts from which binary preimages are put together: numbers of a fixed width, and byte strings with their
length in front. An encoding is `Delimited` on a set of values when what follows an encoded value does not
matter for where it ends. Delimited encodings can be written one after the other; a list of them can be read
back when its length is known, or when nothing follows it.
-/

namespace Encoding

open List Text

variable {α β : Type}

/-- The last `width` base-256 digits of a number, the most significant first. -/
def bigEndian : Nat → Nat → List UInt8
  | 0, _ => []
  | width + 1, n => bigEndian width (n / 256) ++ [UInt8.ofNat n]

/-- `u64::to_be_bytes`. -/
def u64 (n : U64) : List UInt8 := bigEndian 8 n.toNat

/-- `u64::try_from(length).unwrap_or(u64::MAX)`. -/
def length64 (n : Nat) : U64 := (Fixed.tryFrom 64 n).getD (BitVec.allOnes 64)

/-- A byte string after its length. -/
def field (value : List UInt8) : List UInt8 := u64 (length64 value.length) ++ value

/-- The encodings of two values of `P` with anything after them agree only if the values and what follows do. -/
def Delimited (P : α → Prop) (encode : α → List UInt8) : Prop :=
  ∀ ⦃a b : α⦄ ⦃r s : List UInt8⦄, P a → P b → encode a ++ r = encode b ++ s → a = b ∧ r = s

theorem length_bigEndian (width n : Nat) : (bigEndian width n).length = width := by
  induction width generalizing n with
  | zero => rfl
  | succ _ ih => rw [bigEndian, length_append, ih]; rfl

theorem bigEndian_inj {width m n : Nat} (hm : m < 256 ^ width) (hn : n < 256 ^ width)
    (h : bigEndian width m = bigEndian width n) : m = n := by
  induction width generalizing m n with
  | zero => omega
  | succ _ ih =>
    rw [Nat.pow_succ'] at hm hn
    obtain ⟨hinit, hlast⟩ := append_inj' h rfl
    have hdiv := ih (Nat.div_lt_of_lt_mul hm) (Nat.div_lt_of_lt_mul hn) hinit
    have hmod : m % 256 = n % 256 := by
      have hbyte := congrArg UInt8.toNat (singleton_inj.mp hlast)
      simpa using hbyte
    omega

variable {P : α → Prop} {encode : α → List UInt8} {n : Nat}

theorem Delimited.of_length (hlength : ∀ a, (encode a).length = n)
    (hinj : ∀ a b, P a → P b → encode a = encode b → a = b) : Delimited P encode := by
  intro a b r s ha hb h
  obtain ⟨hencode, hrest⟩ := append_inj h ((hlength a).trans (hlength b).symm)
  exact ⟨hinj a b ha hb hencode, hrest⟩

theorem delimited_u64 : Delimited (fun _ => True) u64 := by
  refine Delimited.of_length (fun n => length_bigEndian 8 n.toNat) fun m n _ _ h => ?_
  exact BitVec.eq_of_toNat_eq (bigEndian_inj m.isLt n.isLt h)

theorem length64_inj {m n : Nat} (hm : m < 2 ^ 64) (hn : n < 2 ^ 64) (h : length64 m = length64 n) : m = n := by
  simp only [length64, Fixed.tryFrom, if_pos hm, if_pos hn, Option.getD_some] at h
  have hnat := congrArg BitVec.toNat h
  rwa [BitVec.toNat_ofNat, BitVec.toNat_ofNat, Nat.mod_eq_of_lt hm, Nat.mod_eq_of_lt hn] at hnat

theorem delimited_field : Delimited (fun value => value.length < 2 ^ 64) field := by
  intro a b r s ha hb h
  rw [field, field, append_assoc, append_assoc] at h
  obtain ⟨hlength, hvalue⟩ := delimited_u64 trivial trivial h
  exact append_inj hvalue (length64_inj ha hb hlength)

theorem field_ne_nil (value : List UInt8) : field value ≠ [] := by
  intro h
  have hlength := congrArg length h
  rw [field, length_append, u64, length_bigEndian] at hlength
  simp at hlength

/-- As many encodings on both sides: the lists agree, and so does what follows. -/
theorem Delimited.flatMap (hencode : Delimited P encode) {l l' : List α} {r s : List UInt8}
    (hl : ∀ a ∈ l, P a) (hl' : ∀ a ∈ l', P a) (hlength : l.length = l'.length)
    (h : l.flatMap encode ++ r = l'.flatMap encode ++ s) : l = l' ∧ r = s := by
  induction l generalizing l' with
  | nil =>
    obtain rfl := length_eq_zero_iff.mp hlength.symm
    exact ⟨rfl, h⟩
  | cons a l ih =>
    cases l' with
    | nil => cases hlength
    | cons =>
      rw [flatMap_cons, flatMap_cons, append_assoc, append_assoc] at h
      obtain ⟨ha, htail⟩ := forall_mem_cons.mp hl
      obtain ⟨hb, htail'⟩ := forall_mem_cons.mp hl'
      obtain ⟨rfl, hrest⟩ := hencode ha hb h
      obtain ⟨rfl, hend⟩ := ih htail htail' (Nat.succ.inj hlength) hrest
      exact ⟨rfl, hend⟩

theorem Delimited.flatMap_inj (hencode : Delimited P encode) (hne : ∀ a, encode a ≠ [])
    {l l' : List α} (hl : ∀ a ∈ l, P a) (hl' : ∀ a ∈ l', P a) (h : l.flatMap encode = l'.flatMap encode) : l = l' := by
  induction l generalizing l' with
  | nil =>
    cases l' with
    | nil => rfl
    | cons b =>
      rw [flatMap_cons, flatMap_nil] at h
      exact absurd (append_eq_nil_iff.mp h.symm).1 (hne b)
  | cons a l ih =>
    cases l' with
    | nil =>
      rw [flatMap_cons, flatMap_nil] at h
      exact absurd (append_eq_nil_iff.mp h).1 (hne a)
    | cons =>
      obtain ⟨ha, htail⟩ := forall_mem_cons.mp hl
      obtain ⟨hb, htail'⟩ := forall_mem_cons.mp hl'
      obtain ⟨rfl, hrest⟩ := hencode ha hb h
      exact congrArg (a :: ·) (ih htail htail' hrest)

theorem bytes_inj {a b : String} (h : bytes a = bytes b) : a = b := by
  apply String.toByteArray_inj.mp
  apply ByteArray.ext
  exact Array.toList_inj.mp h

theorem map_bytes_inj {l l' : List String} (h : l.map bytes = l'.map bytes) : l = l' :=
  map_injective_iff.mpr (fun _ _ => bytes_inj) h

end Encoding
