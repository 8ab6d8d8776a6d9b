import Mathlib.Data.Rat.Floor
import RigControl.Gtk.Input
import RigControl.Lib.Letterbox

/-!
# Where the video is in the window

The two letterboxes of `render.c`: that of `render_widget_to_device`, through which a
pointer reaches the video, and that of `on_render`, rounded to the pixels of the
framebuffer. A `double` is a rational number here, so no operation rounds but the cast to
`int`.
-/

namespace RigControl.Gtk

open RigControl.Core RigControl.Lib

/-- The operations on `double` without rounding. -/
abbrev exactOps (toFloat : ℚ → FloatBits) : DoubleOps ℚ where
  lt a b := a < b
  toFloat := toFloat

/-- `(int)x`. -/
def cInt (x : ℚ) : Int := x.num.tdiv x.den

/-- `(int)(x + 0.5)` rounds to the nearest integer. -/
theorem cInt_add_half {x : ℚ} (hx : 0 ≤ x) : cInt (x + 1 / 2) = round x := by
  have hnum : 0 ≤ (x + 1 / 2).num := Rat.num_nonneg.mpr (by linarith)
  rw [cInt, Int.tdiv_eq_ediv_of_nonneg hnum, round_eq, Rat.floor_def']

/-- The arguments of `glViewport`, which counts from the lower left corner. -/
structure Viewport where
  x : Int
  y : Int
  w : Int
  h : Int
  deriving DecidableEq, Repr

/-- How far its edges are from those of a rectangle, in a window that is `wh` high. -/
structure Viewport.Near (v : Viewport) (wh : Int) (r : Rect ℚ) : Prop where
  left : |(v.x : ℚ) - r.left| < 1
  right : |((v.x + v.w : Int) : ℚ) - r.right| < 1
  top : |((wh - (v.y + v.h) : Int) : ℚ) - r.top| < 1
  bottom : |((wh - v.y : Int) : ℚ) - r.bottom| < 1

namespace Session

/-- `render_widget_to_device` without rounding. -/
def renderWidgetToDeviceExact (s : Session) (wx wy : ℚ) : Option (ℚ × ℚ) :=
  if s.vw ≤ 0 ∨ s.vh ≤ 0 then none
  else if s.ww ≤ 0 ∨ s.wh ≤ 0 then none
  else
    let winA : ℚ := s.ww / s.wh
    let vidA : ℚ := s.vw / s.vh
    let (vpw, vph) : ℚ × ℚ := if winA > vidA then (s.wh * vidA, s.wh) else (s.ww, s.ww / vidA)
    let vpx := (s.ww - vpw) / 2
    let vpy := (s.wh - vph) / 2
    if wx < vpx ∨ wx > vpx + vpw ∨ wy < vpy ∨ wy > vpy + vph then none
    else some ((wx - vpx) / vpw * s.vw, (wy - vpy) / vph * s.vh)

/-- The size of the framebuffer for `on_render`: that of the last `resize`, else the
widget's. -/
def framebuffer (s : Session) (fbW fbH : Int) : Int × Int :=
  (if fbW > 0 then fbW else s.ww, if fbH > 0 then fbH else s.wh)

/-- What `on_render` hands `glViewport`. -/
def onRenderViewport (s : Session) (fbW fbH : Int) : Viewport :=
  let (fbw, fbh) := s.framebuffer fbW fbH
  let winA : ℚ := fbw / fbh
  let vidA : ℚ := s.vw / s.vh
  let (vpw, vph) : Int × Int :=
    if winA > vidA then (cInt (fbh * vidA + 1 / 2), fbh) else (fbw, cInt (fbw / vidA + 1 / 2))
  ⟨(fbw - vpw).tdiv 2, (fbh - vph).tdiv 2, vpw, vph⟩

variable {s : Session}

/-- The handlers' function, on rational numbers. -/
theorem renderWidgetToDevice_exactOps (s : Session) (toFloat : ℚ → FloatBits) (wx wy : ℚ) :
    @renderWidgetToDevice ℚ (exactOps toFloat) s wx wy =
      (s.renderWidgetToDeviceExact wx wy).map (Prod.map toFloat toFloat) := by
  unfold renderWidgetToDevice renderWidgetToDeviceExact
  by_cases hvid : s.vw ≤ 0 ∨ s.vh ≤ 0
  · rw [if_pos hvid, if_pos hvid]
    rfl
  rw [if_neg hvid, if_neg hvid]
  by_cases hwin : s.ww ≤ 0 ∨ s.wh ≤ 0
  · rw [if_pos hwin, if_pos hwin]
    rfl
  rw [if_neg hwin, if_neg hwin]
  simp only [DoubleOps.lt, decide_eq_true_eq, Bool.or_eq_true, or_assoc, gt_iff_lt]
  rw [apply_ite (Option.map (Prod.map toFloat toFloat))]
  rfl

/-! ## The letterbox of the input -/

/-- There is a frame, and a window. -/
structure Sized (s : Session) : Prop where
  vw : 0 < s.vw
  vh : 0 < s.vh
  ww : 0 < s.ww
  wh : 0 < s.wh

/-- The aspect ratio of the video. -/
def aspect (s : Session) : ℚ := s.vw / s.vh

def sides (s : Session) : ℚ × ℚ := Rect.fit s.ww s.wh s.aspect

def letterbox (s : Session) : Rect ℚ := Rect.middle s.ww s.wh s.sides.1 s.sides.2

theorem Sized.aspect_pos (hs : s.Sized) : 0 < s.aspect :=
  div_pos (by exact_mod_cast hs.vw) (by exact_mod_cast hs.vh)

theorem Sized.largest (hs : s.Sized) : s.letterbox.Largest (s.ww : ℚ) (s.wh : ℚ) s.aspect :=
  Rect.largest_fit (by exact_mod_cast hs.ww) (by exact_mod_cast hs.wh) hs.aspect_pos

theorem Sized.sides_pos (hs : s.Sized) : 0 < s.sides.1 ∧ 0 < s.sides.2 :=
  Rect.fit_pos (by exact_mod_cast hs.ww) (by exact_mod_cast hs.wh) hs.aspect_pos

/-- What it computes is a stretch of each axis of the letterbox. -/
theorem Sized.renderWidgetToDeviceExact_eq (hs : s.Sized) (wx wy : ℚ) :
    s.renderWidgetToDeviceExact wx wy =
      if wx < s.letterbox.left ∨ wx > s.letterbox.right ∨ wy < s.letterbox.top ∨
          wy > s.letterbox.bottom then none
      else
        some (stretch s.letterbox.left s.letterbox.width s.vw wx,
          stretch s.letterbox.top s.letterbox.height s.vh wy) := by
  have hvid : ¬(s.vw ≤ 0 ∨ s.vh ≤ 0) := by
    have hw := hs.vw
    have hh := hs.vh
    omega
  have hwin : ¬(s.ww ≤ 0 ∨ s.wh ≤ 0) := by
    have hw := hs.ww
    have hh := hs.wh
    omega
  rw [renderWidgetToDeviceExact, if_neg hvid, if_neg hwin]
  rfl

/-- A point is taken iff it is in the letterbox. -/
theorem Sized.isSome_iff (hs : s.Sized) (wx wy : ℚ) :
    (s.renderWidgetToDeviceExact wx wy).isSome ↔ (wx, wy) ∈ s.letterbox.points := by
  rw [hs.renderWidgetToDeviceExact_eq, Rect.mem_points]
  split
  · rename_i hout
    simp only [Option.isSome_none, Bool.false_eq_true, false_iff]
    rintro ⟨⟨hleft, htop⟩, hright, hbottom⟩
    rcases hout with h | h | h | h
    · exact absurd h (not_lt.mpr hleft)
    · exact absurd h (not_lt.mpr hright)
    · exact absurd h (not_lt.mpr htop)
    · exact absurd h (not_lt.mpr hbottom)
  · rename_i hin
    simp only [not_or, not_lt, gt_iff_lt] at hin
    obtain ⟨hleft, hright, htop, hbottom⟩ := hin
    exact ⟨fun _ => ⟨⟨hleft, htop⟩, hright, hbottom⟩, fun _ => rfl⟩

theorem Sized.eq_some (hs : s.Sized) {wx wy : ℚ} {p : ℚ × ℚ}
    (h : s.renderWidgetToDeviceExact wx wy = some p) :
    p = (stretch s.letterbox.left s.letterbox.width s.vw wx,
      stretch s.letterbox.top s.letterbox.height s.vh wy) := by
  rw [hs.renderWidgetToDeviceExact_eq] at h
  exact (Option.some.inj (Option.ite_none_left_eq_some.mp h).2).symm

/-! ## The viewport -/

theorem Sized.sides_le (hs : s.Sized) : s.sides.1 ≤ s.ww ∧ s.sides.2 ≤ s.wh :=
  Rect.fit_le (by exact_mod_cast hs.wh) hs.aspect_pos

/-- The sides of the viewport are those of the letterbox, rounded. -/
theorem Sized.drawn_eq (hs : s.Sized) :
    (if (s.ww / s.wh : ℚ) > s.vw / s.vh then (cInt (s.wh * (s.vw / s.vh) + 1 / 2), s.wh)
      else (s.ww, cInt (s.ww / (s.vw / s.vh) + 1 / 2))) = (round s.sides.1, round s.sides.2) := by
  obtain ⟨hpos, hpos'⟩ := hs.sides_pos
  rw [← aspect]
  by_cases hwide : s.aspect < s.ww / s.wh
  · have hsides : s.sides = (s.wh * s.aspect, ↑s.wh) := if_pos hwide
    rw [hsides] at hpos ⊢
    rw [if_pos hwide, cInt_add_half hpos.le, round_intCast]
  · have hsides : s.sides = (↑s.ww, s.ww / s.aspect) := if_neg hwide
    rw [hsides] at hpos' ⊢
    rw [if_neg hwide, cInt_add_half hpos'.le, round_intCast]

/-- They leave a border that is not negative, so the division by 2 rounds down. -/
theorem Sized.onRenderViewport_eq (hs : s.Sized) {fbW fbH : Int}
    (hfb : s.framebuffer fbW fbH = (s.ww, s.wh)) :
    s.onRenderViewport fbW fbH =
      ⟨(s.ww - round s.sides.1) / 2, (s.wh - round s.sides.2) / 2, round s.sides.1,
        round s.sides.2⟩ := by
  obtain ⟨hle, hle'⟩ := hs.sides_le
  have hw := round_le_of_le hle
  have hh := round_le_of_le hle'
  unfold onRenderViewport
  rw [hfb]
  simp only [hs.drawn_eq]
  rw [Int.tdiv_eq_ediv_of_nonneg (by omega), Int.tdiv_eq_ediv_of_nonneg (by omega)]

/-- Each edge of the viewport is less than a pixel from the letterbox of the input. -/
theorem Sized.viewport_near (hs : s.Sized) {fbW fbH : Int}
    (hfb : s.framebuffer fbW fbH = (s.ww, s.wh)) :
    (s.onRenderViewport fbW fbH).Near s.wh s.letterbox := by
  have hround := abs_sub_round s.sides.1
  have hround' := abs_sub_round s.sides.2
  have hright : s.letterbox.right = (s.ww + s.sides.1) / 2 := Rect.right_middle
  have hbottom : s.letterbox.bottom = (s.wh + s.sides.2) / 2 := Rect.bottom_middle
  have htop : s.letterbox.top = (s.wh - s.sides.2) / 2 := rfl
  have htop' : s.letterbox.top = s.wh - (s.wh + s.sides.2) / 2 := by linarith
  have hbottom' : s.letterbox.bottom = s.wh - (s.wh - s.sides.2) / 2 := by linarith
  rw [hs.onRenderViewport_eq hfb]
  refine ⟨first_edge_near hround, hright ▸ last_edge_near hround, ?_, ?_⟩
  · -- `glViewport` counts from below: the last edge is the upper one
    rw [htop', abs_mirror]
    exact last_edge_near hround'
  · rw [hbottom', abs_mirror]
    exact first_edge_near hround'

end Session

end RigControl.Gtk
