import Mathlib.Data.Rat.Floor
import Mathlib.Tactic.Linarith

/-!
# The greatest multiple below a number

A length rounded down to a multiple of `n`, in a field with a floor. On an integer quotient
it is what division and remainder compute.
-/

namespace RigControl.Lib

variable {K : Type*} [Field K] [LinearOrder K] [FloorRing K]

/-- The greatest multiple of `n` that is at most `q`. -/
def multipleBelow (n : Int) (q : K) : Int := n * ⌊q / n⌋

theorem dvd_multipleBelow (n : Int) (q : K) : n ∣ multipleBelow n q :=
  dvd_mul_right n _

variable [IsStrictOrderedRing K] {n m : Int} {q r : K}

/-- The multiples of `n` below `q` are those below `multipleBelow n q`. -/
theorem le_multipleBelow_iff (hn : 0 < n) (hdvd : n ∣ m) : m ≤ multipleBelow n q ↔ (m : K) ≤ q := by
  have hnK : (0 : K) < n := by exact_mod_cast hn
  obtain ⟨k, rfl⟩ := hdvd
  rw [multipleBelow, mul_le_mul_iff_right₀ hn, Int.le_floor, le_div_iff₀ hnK, Int.cast_mul,
    mul_comm (n : K)]

theorem multipleBelow_le (hn : 0 < n) : (multipleBelow n q : K) ≤ q :=
  (le_multipleBelow_iff hn (dvd_multipleBelow n q)).mp le_rfl

theorem lt_multipleBelow_add (hn : 0 < n) : q < multipleBelow n q + n := by
  by_contra hge
  have hnext : multipleBelow n q + n ≤ multipleBelow n q := by
    rw [le_multipleBelow_iff hn ((dvd_multipleBelow n q).add dvd_rfl)]
    push_cast
    exact not_lt.mp hge
  omega

theorem multipleBelow_mono (hn : 0 < n) (h : q ≤ r) : multipleBelow n q ≤ multipleBelow n r :=
  (le_multipleBelow_iff hn (dvd_multipleBelow n q)).mpr ((multipleBelow_le hn).trans h)

/-- A multiple is not rounded. -/
theorem multipleBelow_of_dvd (hn : 0 < n) (hdvd : n ∣ m) : multipleBelow n (m : K) = m :=
  le_antisymm (by exact_mod_cast multipleBelow_le (q := (m : K)) hn)
    ((le_multipleBelow_iff hn hdvd).mpr le_rfl)

/-- What integer division and remainder leave of a quotient. -/
theorem multipleBelow_div (hn : 0 ≤ n) (z : Int) {d : Int} (hd : 0 ≤ d) :
    multipleBelow n ((z : ℚ) / d) = z / d - z / d % n := by
  lift d to Nat using hd
  rw [multipleBelow, Int.floor_div_cast_of_nonneg hn, Int.cast_natCast,
    Rat.floor_intCast_div_natCast, eq_sub_iff_add_eq, Int.mul_ediv_add_emod]

theorem multipleBelow_intCast (hn : 0 ≤ n) (z : Int) : multipleBelow n (z : ℚ) = z - z % n := by
  simpa using multipleBelow_div hn z zero_le_one

end RigControl.Lib
