import RigControl.Gtk.Viewport
import RigControl.Server.VideoSize

/-!
# From the pointer to the touch

A position in the widget, through the letterbox of the GTK front end into the video, and
through `scaleX` and `scaleY` of the server to the pixels of the device.
-/

namespace RigControl.Wire

open RigControl.Lib RigControl.Gtk RigControl.Server

/-- Where the server injects what the front end sends for a position in the widget. -/
def injectedAt (s : Session) (e : EncoderSize) (wx wy : ℚ) : Option (ℚ × ℚ) :=
  (s.renderWidgetToDeviceExact wx wy).map (Prod.map e.scaleX e.scaleY)

/-- The nearest position on an axis of `d` pixels. -/
def clampPixel (d : Int) (x : ℚ) : ℚ := max 0 (min x (d - 1))

/-- The device has pixels, and the encoder's size is that of the video. -/
structure Encodes (e : EncoderSize) (s : Session) : Prop where
  deviceWidth : 0 < e.deviceWidth.toInt
  deviceHeight : 0 < e.deviceHeight.toInt
  encWidth : e.encWidth.toInt = s.vw
  encHeight : e.encHeight.toInt = s.vh

variable {s : Session} {e : EncoderSize}

theorem clampPixel_mem {d : Int} (hd : 0 < d) (x : ℚ) : clampPixel d x ∈ Set.Icc 0 (d - 1 : ℚ) := by
  have hlast : (0 : ℚ) ≤ d - 1 := by
    rw [sub_nonneg]
    exact_mod_cast hd
  exact ⟨le_max_left _ _, max_le hlast (min_le_right _ _)⟩

theorem clampPixel_monotone (d : Int) : Monotone (clampPixel d) :=
  monotone_const.max (monotone_id.min monotone_const)

/-! ## The scale of the server -/

/-- One axis: `v` pixels of video cancel. -/
theorem scale_stretch {a l x : ℚ} {v : Int} {d : Int32} (hv : 0 < v) (hd : 0 < d.toInt) :
    max 0 (min (stretch a l v x * d.toInt / v) ((d - 1).toInt : ℚ)) =
      clampPixel d.toInt (stretch a l d.toInt x) := by
  have hvQ : (v : ℚ) ≠ 0 := by exact_mod_cast hv.ne'
  have hlt := d.toInt_lt
  have hlast : (d - 1).toInt = d.toInt - 1 :=
    toInt_sub_of_range (by rw [Int32.toInt_one]; omega) (by rw [Int32.toInt_one]; omega)
  have hcancel : stretch a l v x * d.toInt / v = stretch a l d.toInt x := by
    rw [stretch, stretch, mul_right_comm, mul_div_cancel_right₀ _ hvQ]
  rw [hcancel, hlast, Int.cast_sub, Int.cast_one, clampPixel]

/-- The injected position is that of the pointer in the letterbox, in pixels of the device. -/
theorem injectedAt_eq (hs : s.Sized) (he : Encodes e s) {wx wy : ℚ} {i : ℚ × ℚ}
    (h : injectedAt s e wx wy = some i) :
    i = (clampPixel e.deviceWidth.toInt
        (stretch s.letterbox.left s.letterbox.width e.deviceWidth.toInt wx),
      clampPixel e.deviceHeight.toInt
        (stretch s.letterbox.top s.letterbox.height e.deviceHeight.toInt wy)) := by
  obtain ⟨p, hp, rfl⟩ := Option.map_eq_some_iff.mp h
  rw [hs.eq_some hp, Prod.map_apply, EncoderSize.scaleX, EncoderSize.scaleY, he.encWidth,
    he.encHeight]
  exact Prod.ext (scale_stretch hs.vw he.deviceWidth) (scale_stretch hs.vh he.deviceHeight)

/-! ## The pointer -/

/-- What holds of an injected position: `r` is the letterbox. -/
structure TouchPoint (r : Rect ℚ) (e : EncoderSize) (wx wy : ℚ) (i : ℚ × ℚ) : Prop where
  x_mem : i.1 ∈ Set.Icc 0 (e.deviceWidth.toInt - 1 : ℚ)
  y_mem : i.2 ∈ Set.Icc 0 (e.deviceHeight.toInt - 1 : ℚ)
  x_eq : i.1 = clampPixel e.deviceWidth.toInt ((wx - r.left) / r.width * e.deviceWidth.toInt)
  y_eq : i.2 = clampPixel e.deviceHeight.toInt ((wy - r.top) / r.height * e.deviceHeight.toInt)

theorem touchPoint_of_injectedAt (hs : s.Sized) (he : Encodes e s) {wx wy : ℚ} {i : ℚ × ℚ}
    (h : injectedAt s e wx wy = some i) : TouchPoint s.letterbox e wx wy i := by
  rw [injectedAt_eq hs he h]
  exact ⟨clampPixel_mem he.deviceWidth _, clampPixel_mem he.deviceHeight _, rfl, rfl⟩

/-- A pointer further to the right or further down is injected no further left or up. -/
theorem injectedAt_mono (hs : s.Sized) (he : Encodes e s) {wx wy wx' wy' : ℚ} {i j : ℚ × ℚ}
    (h : injectedAt s e wx wy = some i) (h' : injectedAt s e wx' wy' = some j) :
    (wx ≤ wx' → i.1 ≤ j.1) ∧ (wy ≤ wy' → i.2 ≤ j.2) := by
  obtain ⟨hwidth, hheight⟩ := hs.sides_pos
  have hdw : (0 : ℚ) < e.deviceWidth.toInt := by exact_mod_cast he.deviceWidth
  have hdh : (0 : ℚ) < e.deviceHeight.toInt := by exact_mod_cast he.deviceHeight
  rw [injectedAt_eq hs he h, injectedAt_eq hs he h']
  exact ⟨fun hle => clampPixel_monotone _ ((stretch_increasing hwidth hdw).monotone hle),
    fun hle => clampPixel_monotone _ ((stretch_increasing hheight hdh).monotone hle)⟩

/-- What is taken, mapped, injected and drawn, all of one letterbox. -/
theorem pointer_letterboxed (hs : s.Sized) (he : Encodes e s) {fbW fbH : Int}
    (hfb : s.framebuffer fbW fbH = (s.ww, s.wh)) :
    ∃ r : Rect ℚ, r.Largest (s.ww : ℚ) (s.wh : ℚ) (s.vw / s.vh) ∧
      (∀ wx wy, (s.renderWidgetToDeviceExact wx wy).isSome ↔ (wx, wy) ∈ r.points) ∧
      (∃ fx fy, IncreasingOnto fx (Set.Icc r.left r.right) (Set.Icc 0 (s.vw : ℚ)) ∧
        IncreasingOnto fy (Set.Icc r.top r.bottom) (Set.Icc 0 (s.vh : ℚ)) ∧
        ∀ wx wy p, s.renderWidgetToDeviceExact wx wy = some p → p = (fx wx, fy wy)) ∧
      (∀ wx wy i, injectedAt s e wx wy = some i → TouchPoint r e wx wy i) ∧
      (∀ wx wy wx' wy' i j, injectedAt s e wx wy = some i → injectedAt s e wx' wy' = some j →
        (wx ≤ wx' → i.1 ≤ j.1) ∧ (wy ≤ wy' → i.2 ≤ j.2)) ∧
      (s.onRenderViewport fbW fbH).Near s.wh r := by
  obtain ⟨hwidth, hheight⟩ := hs.sides_pos
  refine ⟨s.letterbox, hs.largest, hs.isSome_iff, ?_, fun _ _ _ => touchPoint_of_injectedAt hs he,
    fun _ _ _ _ _ _ => injectedAt_mono hs he, hs.viewport_near hfb⟩
  have hvw : (0 : ℚ) < s.vw := by exact_mod_cast hs.vw
  have hvh : (0 : ℚ) < s.vh := by exact_mod_cast hs.vh
  exact ⟨_, _, stretch_increasing hwidth hvw, stretch_increasing hheight hvh,
    fun _ _ _ => hs.eq_some⟩

/-- A window that is too high for the video: its borders are above and below. -/
def hdSession : Session := { Session.start with vw := 1920, vh := 1080, ww := 1000, wh := 600 }

theorem pointer_letterboxed_hd :
    ∃ r : Rect ℚ, r.Largest ((1000 : Int) : ℚ) ((600 : Int) : ℚ) ((1920 : Int) / (1080 : Int)) ∧
      (500, 300) ∈ r.points ∧
      TouchPoint r ⟨3840, 2160, 0, 1920, 1080⟩ 500 300 (1920, 1080) ∧
      Viewport.Near ⟨0, 18, 1000, 563⟩ 600 r := by
  have hs : hdSession.Sized := ⟨by decide, by decide, by decide, by decide⟩
  have he : Encodes ⟨3840, 2160, 0, 1920, 1080⟩ hdSession :=
    ⟨by decide, by decide, by decide, by decide⟩
  obtain ⟨r, hlargest, hpoints, -, hinjected, -, hnear⟩ :=
    pointer_letterboxed hs he (show hdSession.framebuffer 0 600 = (1000, 600) by decide)
  have hat : injectedAt hdSession ⟨3840, 2160, 0, 1920, 1080⟩ 500 300 = some (1920, 1080) := by
    decide +kernel
  have hview : hdSession.onRenderViewport 0 600 = ⟨0, 18, 1000, 563⟩ := by decide +kernel
  exact ⟨r, hlargest, (hpoints 500 300).mp (by decide +kernel), hinjected _ _ _ hat, hview ▸ hnear⟩

end RigControl.Wire
