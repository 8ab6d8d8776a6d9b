import Mathlib.Algebra.Group.Nat.Defs
import Mathlib.Algebra.Ring.Int.Defs

/-!
# Machine integers and their values

The value of an operation on `Int32` where it does not leave the range, the low bits
cleared by a mask, and `size_t` of 64 bits, to which C converts a signed integer modulo
`2 ^ 64`.
-/

namespace RigControl.Lib

variable {x y m : Int32}

/-! ## `Int32` -/

/-- The value of an `Int32` computation that stays in range. -/
theorem bmod_of_range {z : Int} (hlo : -2 ^ 31 ≤ z) (hhi : z < 2 ^ 31) : z.bmod (2 ^ 32) = z :=
  Int.bmod_eq_of_le hlo hhi

theorem toInt_sub_of_range (hlo : -2 ^ 31 ≤ x.toInt - y.toInt) (hhi : x.toInt - y.toInt < 2 ^ 31) :
    (x - y).toInt = x.toInt - y.toInt := by
  rw [Int32.toInt_sub, bmod_of_range hlo hhi]

theorem toInt_mul_of_range (hlo : -2 ^ 31 ≤ x.toInt * y.toInt) (hhi : x.toInt * y.toInt < 2 ^ 31) :
    (x * y).toInt = x.toInt * y.toInt := by
  rw [Int32.toInt_mul, bmod_of_range hlo hhi]

theorem toInt_max : (max x y).toInt = max x.toInt y.toInt := by
  rw [Int.max_def, ← apply_ite Int32.toInt]
  simp only [← Int32.le_iff_toInt_le]
  rfl

theorem toInt_min : (min x y).toInt = min x.toInt y.toInt := by
  rw [Int.min_def, ← apply_ite Int32.toInt]
  simp only [← Int32.le_iff_toInt_le]
  rfl

/-- The division of C and Java rounds towards 0, which is down here. -/
theorem toInt_div_of_nonneg (hx : 0 ≤ x.toInt) : (x / y).toInt = x.toInt / y.toInt := by
  have hne : x ≠ Int32.minValue := by
    rintro rfl
    exact absurd hx (by decide)
  rw [Int32.toInt_div_of_ne_left x y hne, Int.tdiv_eq_ediv_of_nonneg hx]

/-- A mask splits a word in two that do not overlap. -/
theorem toNat_and_not_add {w : Nat} (u v : BitVec w) :
    (u &&& ~~~v).toNat + (u &&& v).toNat = u.toNat := by
  have hdisjoint : (u &&& ~~~v) &&& (u &&& v) = 0#w := by
    ext i hi
    simp only [BitVec.getElem_and, BitVec.getElem_not, BitVec.getElem_zero]
    cases u[i] <;> cases v[i] <;> rfl
  have hjoin : (u &&& ~~~v) ||| (u &&& v) = u := by
    ext i hi
    simp only [BitVec.getElem_or, BitVec.getElem_and, BitVec.getElem_not]
    cases u[i] <;> cases v[i] <;> rfl
  rw [← BitVec.toNat_add_of_and_eq_zero hdisjoint, BitVec.add_eq_or_of_and_eq_zero _ _ hdisjoint,
    hjoin]

theorem toInt_eq_toNat (hx : 0 ≤ x.toInt) : x.toInt = x.toBitVec.toNat := by
  have hcond := BitVec.toInt_eq_toNat_cond x.toBitVec
  have hlt := x.toBitVec.isLt
  rw [Int32.toInt_toBitVec] at hcond
  split at hcond
  · exact hcond
  · omega

/-- `x & ~m` for a mask of the low `k` bits. -/
theorem toInt_and_not {k : Nat} (hx : 0 ≤ x.toInt) (hm : m.toBitVec.toNat = 2 ^ k - 1) :
    (x &&& ~~~m).toInt = x.toInt - x.toInt % 2 ^ k := by
  have hsplit := toNat_and_not_add x.toBitVec m.toBitVec
  rw [BitVec.toNat_and x.toBitVec m.toBitVec, hm, Nat.and_two_pow_sub_one_eq_mod] at hsplit
  have hxval := toInt_eq_toNat hx
  have hlt := x.toInt_lt
  have hval : (x &&& ~~~m).toInt = ((x.toBitVec &&& ~~~m.toBitVec).toNat : Int) := by
    rw [← Int32.toInt_toBitVec, Int32.toBitVec_and, Int32.toBitVec_not]
    exact BitVec.toInt_eq_toNat_of_lt (by omega)
  have hmod : x.toInt % 2 ^ k = ((x.toBitVec.toNat % 2 ^ k : Nat) : Int) := by
    rw [hxval]
    norm_cast
  rw [hval, hmod, hxval]
  omega

/-! ## `size_t` -/

/-- `(size_t)x`. -/
def sizeT (x : Int32) : UInt64 := UInt64.ofInt x.toInt

theorem toNat_ofInt (z : Int) : ((UInt64.ofInt z).toNat : Int) = z % 2 ^ 64 := by
  have hlt : (z % 2 ^ 64).toNat < 2 ^ 64 := by omega
  rw [UInt64.ofInt, UInt64.toNat_ofNat', Nat.mod_eq_of_lt hlt]
  omega

end RigControl.Lib
