import Mathlib.Algebra.Order.Group.Pointwise.Interval
import Mathlib.Algebra.Order.Round
import Mathlib.Tactic.Linarith
import Mathlib.Tactic.Ring

/-!
# Letterboxing

The largest centred rectangle of an aspect ratio in a window, the increasing affine map of
an interval onto `[0, v]`, and where the edges go when a centred length is rounded to an
integer.
-/

namespace RigControl.Lib

variable {K : Type*} [Field K] [LinearOrder K]

/-! ## Rectangles -/

structure Rect (K : Type*) where
  left : K
  top : K
  width : K
  height : K

namespace Rect

def right (r : Rect K) : K := r.left + r.width

def bottom (r : Rect K) : K := r.top + r.height

/-- The points, those on the edges included. -/
def points (r : Rect K) : Set (K × K) := Set.Icc (r.left, r.top) (r.right, r.bottom)

/-- A centred rectangle in a window, `a` times as wide as it is high. -/
structure Letterbox (ww wh a : K) (r : Rect K) : Prop where
  pos : 0 < r.height
  ratio : r.width = a * r.height
  centred : r.left + r.right = ww ∧ r.top + r.bottom = wh
  inside : r.points ⊆ Set.Icc 0 (ww, wh)

/-- The one that all the others are in. -/
structure Largest (ww wh a : K) (r : Rect K) : Prop extends Letterbox ww wh a r where
  largest : ∀ q, Letterbox ww wh a q → q.points ⊆ r.points

/-- The rectangle with the sides `w` and `h` in the middle of a window. -/
def middle (ww wh w h : K) : Rect K := ⟨(ww - w) / 2, (wh - h) / 2, w, h⟩

variable {ww wh a w h : K} {r : Rect K}

theorem mem_points {x y : K} :
    (x, y) ∈ r.points ↔ (r.left ≤ x ∧ r.top ≤ y) ∧ x ≤ r.right ∧ y ≤ r.bottom := Iff.rfl

variable [IsStrictOrderedRing K]

theorem right_middle : (middle ww wh w h).right = (ww + w) / 2 := by
  simp only [right, middle]
  ring

theorem bottom_middle : (middle ww wh w h).bottom = (wh + h) / 2 := by
  simp only [bottom, middle]
  ring

theorem middle_subset {w' h' : K} (hw : w ≤ w') (hh : h ≤ h') :
    (middle ww wh w h).points ⊆ (middle ww wh w' h').points := by
  rw [points, points, right_middle, right_middle, bottom_middle, bottom_middle]
  refine Set.Icc_subset_Icc ⟨?_, ?_⟩ ⟨?_, ?_⟩ <;> simp only [middle] <;> linarith

/-- A letterbox is in the middle, and no wider or higher than the window. -/
theorem Letterbox.eq_middle (hr : Letterbox ww wh a r) :
    r = middle ww wh (a * r.height) r.height := by
  obtain ⟨hx, hy⟩ := hr.centred
  have hratio := hr.ratio
  obtain ⟨left, top, width, height⟩ := r
  simp only [right, bottom] at hx hy hratio
  simp only [middle, Rect.mk.injEq, and_true]
  exact ⟨by linarith, by linarith, hratio⟩

theorem Letterbox.le_window (ha : 0 < a) (hr : Letterbox ww wh a r) :
    r.height ≤ wh ∧ a * r.height ≤ ww := by
  obtain ⟨hx, hy⟩ := hr.centred
  have hratio := hr.ratio
  have hwidth : 0 < a * r.height := mul_pos ha hr.pos
  have hcorner : (r.left, r.top) ∈ r.points := by
    have hpos := hr.pos
    rw [mem_points, right, bottom]
    exact ⟨⟨le_rfl, le_rfl⟩, by linarith, by linarith⟩
  obtain ⟨⟨hleft, htop⟩, -⟩ := hr.inside hcorner
  simp only [Prod.fst_zero, Prod.snd_zero, right, bottom] at hleft htop hx hy
  exact ⟨by linarith, by linarith⟩

/-! ## The largest letterbox -/

/-- The sides: a window that is wider than the ratio limits the height, else the width. -/
def fit (ww wh a : K) : K × K := if a < ww / wh then (wh * a, wh) else (ww, ww / a)

theorem fit_eq (hwh : 0 < wh) (ha : 0 < a) :
    fit ww wh a = (a * min wh (ww / a), min wh (ww / a)) := by
  unfold fit
  split
  · rename_i hwide
    have hle : wh ≤ ww / a := by
      rw [lt_div_iff₀ hwh] at hwide
      rw [le_div_iff₀ ha, mul_comm]
      exact hwide.le
    rw [min_eq_left hle, mul_comm]
  · rename_i htall
    have hle : ww / a ≤ wh := by
      rw [not_lt, div_le_iff₀ hwh] at htall
      rwa [div_le_iff₀ ha, mul_comm]
    rw [min_eq_right hle, mul_div_cancel₀ _ ha.ne']

/-- Both sides of it are positive, and as long as the window lets them. -/
theorem fit_pos (hww : 0 < ww) (hwh : 0 < wh) (ha : 0 < a) :
    0 < (fit ww wh a).1 ∧ 0 < (fit ww wh a).2 := by
  have hheight : 0 < min wh (ww / a) := lt_min hwh (div_pos hww ha)
  rw [fit_eq hwh ha]
  exact ⟨mul_pos ha hheight, hheight⟩

theorem fit_le (hwh : 0 < wh) (ha : 0 < a) : (fit ww wh a).1 ≤ ww ∧ (fit ww wh a).2 ≤ wh := by
  rw [fit_eq hwh ha]
  refine ⟨?_, min_le_left _ _⟩
  calc a * min wh (ww / a) ≤ a * (ww / a) := mul_le_mul_of_nonneg_left (min_le_right _ _) ha.le
    _ = ww := mul_div_cancel₀ ww ha.ne'

theorem largest_fit (hww : 0 < ww) (hwh : 0 < wh) (ha : 0 < a) :
    Largest ww wh a (middle ww wh (fit ww wh a).1 (fit ww wh a).2) where
  pos := (fit_pos hww hwh ha).2
  ratio := by simp only [middle, fit_eq hwh ha]
  centred := by
    rw [right_middle, bottom_middle]
    simp only [middle]
    exact ⟨by ring, by ring⟩
  inside := by
    obtain ⟨hle, hle'⟩ : (fit ww wh a).1 ≤ ww ∧ (fit ww wh a).2 ≤ wh := fit_le hwh ha
    have hwindow : (middle ww wh ww wh).points = Set.Icc 0 (ww, wh) := by
      rw [points, right_middle, bottom_middle]
      simp [middle, Prod.mk_zero_zero]
    exact hwindow ▸ middle_subset hle hle'
  largest q hq := by
    obtain ⟨hheight, hwidth⟩ := hq.le_window ha
    have hmin : q.height ≤ min wh (ww / a) := by
      rw [le_min_iff, le_div_iff₀ ha, mul_comm]
      exact ⟨hheight, hwidth⟩
    rw [hq.eq_middle, fit_eq hwh ha]
    exact middle_subset (mul_le_mul_of_nonneg_left hmin ha.le) hmin

end Rect

/-! ## Maps of an interval -/

/-- An increasing affine bijection of two sets of numbers. -/
structure IncreasingOnto (f : K → K) (I J : Set K) : Prop where
  affine : ∃ k t, 0 < k ∧ ∀ x, f x = k * x + t
  bijOn : Set.BijOn f I J

/-- `[a, a + l]` onto `[0, v]`. -/
def stretch (a l v x : K) : K := (x - a) / l * v

variable [IsStrictOrderedRing K] {a l v : K}

theorem IncreasingOnto.monotone {f : K → K} {I J : Set K} (hf : IncreasingOnto f I J) :
    Monotone f := by
  obtain ⟨k, t, hk, heq⟩ := hf.affine
  intro x y hxy
  rw [heq, heq]
  exact add_le_add_left (mul_le_mul_of_nonneg_left hxy hk.le) t

theorem stretch_increasing (hl : 0 < l) (hv : 0 < v) :
    IncreasingOnto (stretch a l v) (Set.Icc a (a + l)) (Set.Icc 0 v) := by
  have hk : 0 < v / l := div_pos hv hl
  have heq : ∀ x, stretch a l v x = v / l * x + -(v / l * a) := fun x => by
    rw [stretch]
    ring
  have hends : stretch a l v '' Set.Icc a (a + l) = Set.Icc 0 v := by
    have hlast : v / l * (a + l) + -(v / l * a) = v := by
      rw [mul_add, div_mul_cancel₀ v hl.ne']
      ring
    rw [funext heq, Set.image_affine_Icc' hk, add_neg_cancel, hlast]
  have hinj : Set.InjOn (stretch a l v) (Set.Icc a (a + l)) := fun x _ y _ hxy => by
    rw [heq, heq] at hxy
    exact mul_left_cancel₀ hk.ne' (add_right_cancel hxy)
  exact ⟨⟨v / l, -(v / l * a), hk, heq⟩, hends ▸ hinj.bijOn_image⟩

/-! ## Rounded lengths -/

theorem round_le_of_le [FloorRing K] {n : Int} (hle : l ≤ n) : round l ≤ n := by
  rw [round_eq, ← Int.lt_add_one_iff, Int.floor_lt]
  push_cast
  linarith

/-- Half of an integer, rounded down. -/
theorem cast_half (d : Int) :
    ((d / 2 : Int) : K) ≤ d / 2 ∧ (d : K) / 2 ≤ (d / 2 : Int) + 1 / 2 := by
  have hlo : d / 2 * 2 ≤ d := by omega
  have hhi : d ≤ d / 2 * 2 + 1 := by omega
  have hloK : ((d / 2 : Int) : K) * 2 ≤ d := by exact_mod_cast hlo
  have hhiK : (d : K) ≤ ((d / 2 : Int) : K) * 2 + 1 := by exact_mod_cast hhi
  exact ⟨by linarith, by linarith⟩

variable {n k : Int}

/-- A rounded length in the middle of `n`: its first edge. -/
theorem first_edge_near (hk : |l - k| ≤ 1 / 2) :
    |(((n - k) / 2 : Int) : K) - (n - l) / 2| < 1 := by
  obtain ⟨hlo, hhi⟩ := abs_le.mp hk
  have hhalf := cast_half (K := K) (n - k)
  rw [Int.cast_sub] at hhalf
  rw [abs_lt]
  constructor <;> linarith [hhalf.1, hhalf.2]

/-- And its last. -/
theorem last_edge_near (hk : |l - k| ≤ 1 / 2) :
    |(((n - k) / 2 + k : Int) : K) - (n + l) / 2| < 1 := by
  obtain ⟨hlo, hhi⟩ := abs_le.mp hk
  have hhalf := cast_half (K := K) (n - k)
  rw [Int.cast_sub] at hhalf
  rw [abs_lt, Int.cast_add]
  constructor <;> linarith [hhalf.1, hhalf.2]

omit [IsStrictOrderedRing K] in
/-- A distance, counted from the other side. -/
theorem abs_mirror (n z : Int) (e : K) : |((n - z : Int) : K) - (n - e)| = |(z : K) - e| := by
  rw [Int.cast_sub, sub_sub_sub_cancel_left, abs_sub_comm]

end RigControl.Lib
