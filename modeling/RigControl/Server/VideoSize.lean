import RigControl.Lib.MachineInt
import RigControl.Lib.Multiple

/-!
# The size of the video

`ScreenEncoder.computeVideoSize`: the longer side is limited to `maxSize` unless that is 0,
the shorter one keeps the ratio, and both are rounded down to a multiple of 8. `configure`
calls it for the display, at the start and after each rotation. `scaleX` and `scaleY` of
`ControlReceiver` go back from the video to the display.

The exact size is a rational number; what the code computes on 32 bits is the greatest
multiple of 8 below it.
-/

namespace RigControl.Server

open RigControl.Lib

def computeVideoSize (w h maxSize : Int32) : Int32 × Int32 :=
  let (w, h) :=
    if maxSize > 0 then
      let major := max w h
      let minor := min w h
      if major > maxSize then
        let minorScaled := minor * maxSize / major
        if w > h then (maxSize, minorScaled) else (minorScaled, maxSize)
      else (w, h)
    else (w, h)
  (w &&& ~~~7, h &&& ~~~7)

/-- What `configure` reads of a `DisplayInfo`. -/
structure DisplayInfo where
  width : Int32
  height : Int32
  layerStack : Int32
  deriving DecidableEq, Repr

/-- What it sets in the `ScreenEncoder`. -/
structure EncoderSize where
  deviceWidth : Int32
  deviceHeight : Int32
  layerStack : Int32
  encWidth : Int32
  encHeight : Int32
  deriving DecidableEq, Repr

/-- Without a `DisplayInfo` it throws. -/
def configure (info : Option DisplayInfo) (maxSize : Int32) : Option EncoderSize :=
  info.map fun info =>
    let size := computeVideoSize info.width info.height maxSize
    ⟨info.width, info.height, info.layerStack, size.1, size.2⟩

/-! ## Back to the display -/

/-- `scaleX`, with a `float` that is not rounded. -/
def EncoderSize.scaleX (e : EncoderSize) (x : ℚ) : ℚ :=
  let dx := x * e.deviceWidth.toInt / e.encWidth.toInt
  max 0 (min dx (e.deviceWidth - 1).toInt)

def EncoderSize.scaleY (e : EncoderSize) (y : ℚ) : ℚ :=
  let dy := y * e.deviceHeight.toInt / e.encHeight.toInt
  max 0 (min dy (e.deviceHeight - 1).toInt)

variable {w h maxSize : Int32}

/-! ## The exact size -/

/-- The part of its size that a display with the longer side `major` keeps. -/
def sizeFactor (major maxSize : Int) : ℚ :=
  if 0 < maxSize ∧ maxSize < major then maxSize / major else 1

/-- A side of the video before it is rounded. -/
def exactSide (side major maxSize : Int) : ℚ := side * sizeFactor major maxSize

section ExactSide

variable {side other major m : Int}

theorem sizeFactor_nonneg : 0 ≤ sizeFactor major m := by
  unfold sizeFactor
  split
  · rename_i hlimit
    have hm : (0 : ℚ) < m := by exact_mod_cast hlimit.1
    have hmajor : (0 : ℚ) < major := by exact_mod_cast hlimit.1.trans hlimit.2
    exact (div_pos hm hmajor).le
  · exact zero_le_one

theorem sizeFactor_le_one : sizeFactor major m ≤ 1 := by
  unfold sizeFactor
  split
  · rename_i hlimit
    have hmajor : (0 : ℚ) < major := by exact_mod_cast hlimit.1.trans hlimit.2
    rw [div_le_one hmajor]
    exact_mod_cast hlimit.2.le
  · exact le_rfl

theorem exactSide_mono (hle : side ≤ other) : exactSide side major m ≤ exactSide other major m :=
  mul_le_mul_of_nonneg_right (by exact_mod_cast hle) sizeFactor_nonneg

theorem exactSide_le (hside : 0 ≤ side) : exactSide side major m ≤ side :=
  mul_le_of_le_one_right (by exact_mod_cast hside) sizeFactor_le_one

theorem exactSide_of_not_limited (hlimit : ¬(0 < m ∧ m < major)) :
    exactSide side major m = side := by
  rw [exactSide, sizeFactor, if_neg hlimit, mul_one]

theorem exactSide_of_limited (hm : 0 < m) (hlt : m < major) :
    exactSide side major m = ((side * m : Int) : ℚ) / major := by
  rw [exactSide, sizeFactor, if_pos ⟨hm, hlt⟩, ← mul_div_assoc, ← Int.cast_mul]

/-- The longer side is `maxSize` where that limits it. -/
theorem exactSide_major (hm : 0 < m) (hlt : m < major) : exactSide major major m = m := by
  have hmajor : (major : ℚ) ≠ 0 := by exact_mod_cast (hm.trans hlt).ne'
  rw [exactSide_of_limited hm hlt, Int.cast_mul, mul_div_cancel_left₀ _ hmajor]

theorem exactSide_le_maxSize (hm : 0 < m) (hle : side ≤ major) : exactSide side major m ≤ m := by
  by_cases hlt : m < major
  · exact (exactSide_mono hle).trans (exactSide_major hm hlt).le
  · rw [exactSide_of_not_limited fun hlimit => hlt hlimit.2]
    exact_mod_cast hle.trans (not_lt.mp hlt)

/-- The sides do not vanish: of a display no wider than `m / 8` times its height. -/
theorem le_exactSide (hside : 8 ≤ side) (hratio : 0 < m → 8 * major ≤ side * m) :
    8 ≤ exactSide side major m := by
  by_cases hlimit : 0 < m ∧ m < major
  · have hmajor : (0 : ℚ) < major := by exact_mod_cast hlimit.1.trans hlimit.2
    rw [exactSide_of_limited hlimit.1 hlimit.2, le_div_iff₀ hmajor]
    exact_mod_cast hratio hlimit.1
  · rw [exactSide_of_not_limited hlimit]
    exact_mod_cast hside

end ExactSide

/-! ## What the code computes -/

/-- The sides of a display, and a limit that does not make the video narrower than 8. -/
structure SizeRange (w h maxSize : Int32) : Prop where
  width : 8 ≤ w.toInt ∧ w.toInt ≤ 46340
  height : 8 ≤ h.toInt ∧ h.toInt ≤ 46340
  limit : maxSize.toInt = 0 ∨
    8 ≤ maxSize.toInt ∧ 8 * max w.toInt h.toInt ≤ min w.toInt h.toInt * maxSize.toInt

/-- `& ~7`. -/
theorem toInt_mask {x : Int32} (hx : 0 ≤ x.toInt) :
    (x &&& ~~~7).toInt = multipleBelow 8 (x.toInt : ℚ) := by
  rw [toInt_and_not (k := 3) hx rfl, multipleBelow_intCast (by decide)]
  rfl

/-- The product stays below `46340 * 46340`. -/
theorem toInt_scaled {minor major : Int32} (hminor : 0 ≤ minor.toInt)
    (hle : minor.toInt ≤ major.toInt) (hmajor : major.toInt ≤ 46340)
    (hm : 0 < maxSize.toInt) (hlt : maxSize.toInt < major.toInt) :
    (minor * maxSize).toInt = minor.toInt * maxSize.toInt ∧
      (minor * maxSize / major).toInt = minor.toInt * maxSize.toInt / major.toInt := by
  have hnonneg : 0 ≤ minor.toInt * maxSize.toInt := mul_nonneg hminor hm.le
  have hbound : minor.toInt * maxSize.toInt ≤ 46340 * 46340 :=
    mul_le_mul (hle.trans hmajor) (hlt.le.trans hmajor) hm.le (by decide)
  have hproduct : (minor * maxSize).toInt = minor.toInt * maxSize.toInt :=
    toInt_mul_of_range (by omega) (by omega)
  exact ⟨hproduct, by rw [toInt_div_of_nonneg (hproduct ▸ hnonneg), hproduct]⟩

/-- The masked quotient is the multiple of 8 below the exact side. -/
theorem toInt_scaled_mask {minor major : Int32} (hminor : 0 ≤ minor.toInt)
    (hle : minor.toInt ≤ major.toInt) (hmajor : major.toInt ≤ 46340)
    (hm : 0 < maxSize.toInt) (hlt : maxSize.toInt < major.toInt) :
    (minor * maxSize / major &&& ~~~7).toInt =
      multipleBelow 8 (exactSide minor.toInt major.toInt maxSize.toInt) := by
  obtain ⟨-, hquotient⟩ := toInt_scaled hminor hle hmajor hm hlt
  have hpos : 0 ≤ major.toInt := (hm.trans hlt).le
  have hnonneg : 0 ≤ (minor * maxSize / major).toInt :=
    hquotient ▸ Int.ediv_nonneg (mul_nonneg hminor hm.le) hpos
  rw [toInt_mask hnonneg, multipleBelow_intCast (by decide), exactSide_of_limited hm hlt,
    multipleBelow_div (by decide) _ hpos, hquotient]

theorem max_eq_major {minor major : Int32} (hle : minor.toInt ≤ major.toInt) :
    max minor major = major ∧ max major minor = major ∧
      min minor major = minor ∧ min major minor = minor := by
  simp only [← Int32.toInt_inj, toInt_max, toInt_min]
  omega

/-- Without a limit each side is masked. -/
theorem computeVideoSize_of_not_limited
    (hlimit : ¬(0 < maxSize.toInt ∧ maxSize.toInt < max w.toInt h.toInt)) :
    computeVideoSize w h maxSize = (w &&& ~~~7, h &&& ~~~7) := by
  rw [← toInt_max] at hlimit
  by_cases hm : maxSize > 0
  · have hmajor : ¬max w h > maxSize := fun hgt =>
      hlimit ⟨Int32.lt_iff_toInt_lt.mp hm, Int32.lt_iff_toInt_lt.mp hgt⟩
    simp only [computeVideoSize, if_pos hm, if_neg hmajor]
  · simp only [computeVideoSize, if_neg hm]

/-- A wide display that is limited. -/
theorem computeVideoSize_of_wide (hm : 0 < maxSize.toInt) (hlt : maxSize.toInt < w.toInt)
    (hwide : h.toInt < w.toInt) :
    computeVideoSize w h maxSize = (maxSize &&& ~~~7, h * maxSize / w &&& ~~~7) := by
  have hm' : maxSize > 0 := Int32.lt_iff_toInt_lt.mpr hm
  have hlt' : w > maxSize := Int32.lt_iff_toInt_lt.mpr hlt
  have hwide' : w > h := Int32.lt_iff_toInt_lt.mpr hwide
  obtain ⟨-, hmax, -, hmin⟩ := max_eq_major hwide.le
  simp only [computeVideoSize, hmax, hmin, if_pos hm', if_pos hlt', if_pos hwide']

/-- One that is not wide. -/
theorem computeVideoSize_of_tall (hm : 0 < maxSize.toInt) (hlt : maxSize.toInt < h.toInt)
    (htall : w.toInt ≤ h.toInt) :
    computeVideoSize w h maxSize = (w * maxSize / h &&& ~~~7, maxSize &&& ~~~7) := by
  have hm' : maxSize > 0 := Int32.lt_iff_toInt_lt.mpr hm
  have hlt' : h > maxSize := Int32.lt_iff_toInt_lt.mpr hlt
  have htall' : ¬w > h := fun hgt => absurd (Int32.lt_iff_toInt_lt.mp hgt) (not_lt.mpr htall)
  obtain ⟨hmax, -, hmin, -⟩ := max_eq_major htall
  simp only [computeVideoSize, hmax, hmin, if_pos hm', if_pos hlt', if_neg htall']

/-- Each side is the greatest multiple of 8 below the exact one. -/
theorem computeVideoSize_eq (hsize : SizeRange w h maxSize) :
    (computeVideoSize w h maxSize).1.toInt =
        multipleBelow 8 (exactSide w.toInt (max w.toInt h.toInt) maxSize.toInt) ∧
      (computeVideoSize w h maxSize).2.toInt =
        multipleBelow 8 (exactSide h.toInt (max w.toInt h.toInt) maxSize.toInt) := by
  obtain ⟨hw, hw'⟩ := hsize.width
  obtain ⟨hh, hh'⟩ := hsize.height
  by_cases hlimit : 0 < maxSize.toInt ∧ maxSize.toInt < max w.toInt h.toInt
  · obtain ⟨hm, hlt⟩ := hlimit
    have hmask := toInt_mask hm.le
    rcases lt_or_ge h.toInt w.toInt with hwide | htall
    · rw [max_eq_left hwide.le] at hlt ⊢
      rw [computeVideoSize_of_wide hm hlt hwide, exactSide_major hm hlt]
      exact ⟨hmask, toInt_scaled_mask (by omega) hwide.le hw' hm hlt⟩
    · rw [max_eq_right htall] at hlt ⊢
      rw [computeVideoSize_of_tall hm hlt htall, exactSide_major hm hlt]
      exact ⟨toInt_scaled_mask (by omega) htall hh' hm hlt, hmask⟩
  · rw [computeVideoSize_of_not_limited hlimit, exactSide_of_not_limited hlimit,
      exactSide_of_not_limited hlimit]
    exact ⟨toInt_mask (by omega), toInt_mask (by omega)⟩

/-! ## The sides of the video -/

/-- What holds of a side of the video: of the display it has the exact side. -/
structure VideoSide (source maxSize : Int) (exact : ℚ) (side : Int) : Prop where
  dvd : 8 ∣ side
  pos : 0 < side
  le_source : side ≤ source
  le_maxSize : 0 < maxSize → side ≤ maxSize
  near : (side : ℚ) ≤ exact ∧ exact < side + 8

theorem videoSide_multipleBelow {source major m : Int} (hsource : 8 ≤ source)
    (hle : source ≤ major) (hratio : 0 < m → 8 * major ≤ source * m) :
    VideoSide source m (exactSide source major m) (multipleBelow 8 (exactSide source major m)) where
  dvd := dvd_multipleBelow 8 _
  pos := by
    have hle8 : 8 ≤ multipleBelow 8 (exactSide source major m) :=
      (le_multipleBelow_iff (by decide) dvd_rfl).mpr (by exact_mod_cast le_exactSide hsource hratio)
    omega
  le_source := by
    have hexact : exactSide source major m ≤ source := exactSide_le (by omega)
    exact_mod_cast (multipleBelow_le (by decide)).trans hexact
  le_maxSize hm := by
    have hexact : exactSide source major m ≤ m := exactSide_le_maxSize hm hle
    exact_mod_cast (multipleBelow_le (by decide)).trans hexact
  near := by
    have hnext := lt_multipleBelow_add (q := exactSide source major m) (n := 8) (by decide)
    exact ⟨multipleBelow_le (by decide), by rwa [Int.cast_ofNat] at hnext⟩

theorem SizeRange.ratio (hsize : SizeRange w h maxSize) (hm : 0 < maxSize.toInt) :
    8 * max w.toInt h.toInt ≤ w.toInt * maxSize.toInt ∧
      8 * max w.toInt h.toInt ≤ h.toInt * maxSize.toInt := by
  obtain hzero | ⟨-, hratio⟩ := hsize.limit
  · omega
  · exact ⟨hratio.trans (mul_le_mul_of_nonneg_right (min_le_left _ _) hm.le),
      hratio.trans (mul_le_mul_of_nonneg_right (min_le_right _ _) hm.le)⟩

theorem SizeRange.sides (hsize : SizeRange w h maxSize) :
    VideoSide w.toInt maxSize.toInt (exactSide w.toInt (max w.toInt h.toInt) maxSize.toInt)
        (computeVideoSize w h maxSize).1.toInt ∧
      VideoSide h.toInt maxSize.toInt (exactSide h.toInt (max w.toInt h.toInt) maxSize.toInt)
        (computeVideoSize w h maxSize).2.toInt := by
  obtain ⟨hfst, hsnd⟩ := computeVideoSize_eq hsize
  rw [hfst, hsnd]
  exact ⟨videoSide_multipleBelow hsize.width.1 (le_max_left _ _) fun hm => (hsize.ratio hm).1,
    videoSide_multipleBelow hsize.height.1 (le_max_right _ _) fun hm => (hsize.ratio hm).2⟩

/-- The longer side of the display is the longer one of the video. -/
theorem SizeRange.order (hsize : SizeRange w h maxSize) :
    (w ≤ h → (computeVideoSize w h maxSize).1 ≤ (computeVideoSize w h maxSize).2) ∧
      (h ≤ w → (computeVideoSize w h maxSize).2 ≤ (computeVideoSize w h maxSize).1) := by
  obtain ⟨hfst, hsnd⟩ := computeVideoSize_eq hsize
  simp only [Int32.le_iff_toInt_le, hfst, hsnd]
  exact ⟨fun hle => multipleBelow_mono (by decide) (exactSide_mono hle),
    fun hle => multipleBelow_mono (by decide) (exactSide_mono hle)⟩

/-- The size of the video is one that a display can have. -/
theorem SizeRange.video (hsize : SizeRange w h maxSize) :
    SizeRange (computeVideoSize w h maxSize).1 (computeVideoSize w h maxSize).2 maxSize := by
  obtain ⟨hfst, hsnd⟩ := hsize.sides
  generalize computeVideoSize w h maxSize = size at hfst hsnd ⊢
  obtain ⟨k, hk⟩ := hfst.dvd
  obtain ⟨l, hl⟩ := hsnd.dvd
  have hpos := hfst.pos
  have hpos' := hsnd.pos
  have hfst8 : 8 ≤ size.1.toInt := by omega
  have hsnd8 : 8 ≤ size.2.toInt := by omega
  refine ⟨⟨hfst8, hfst.le_source.trans hsize.width.2⟩,
    ⟨hsnd8, hsnd.le_source.trans hsize.height.2⟩, ?_⟩
  refine hsize.limit.imp_right fun hlimit => ⟨hlimit.1, ?_⟩
  have hm : 0 < maxSize.toInt := by omega
  exact mul_le_mul (le_min hfst8 hsnd8) (max_le (hfst.le_maxSize hm) (hsnd.le_maxSize hm))
    (by omega) (by omega)

/-- A video that has its size keeps it. -/
theorem SizeRange.again (hsize : SizeRange w h maxSize) :
    computeVideoSize (computeVideoSize w h maxSize).1 (computeVideoSize w h maxSize).2 maxSize =
      computeVideoSize w h maxSize := by
  obtain ⟨hfst, hsnd⟩ := hsize.sides
  obtain ⟨hfst', hsnd'⟩ := computeVideoSize_eq hsize.video
  generalize computeVideoSize w h maxSize = size at hfst hsnd hfst' hsnd' ⊢
  have hlimit : ¬(0 < maxSize.toInt ∧ maxSize.toInt < max size.1.toInt size.2.toInt) :=
    fun hlimit => absurd hlimit.2
      (not_lt.mpr (max_le (hfst.le_maxSize hlimit.1) (hsnd.le_maxSize hlimit.1)))
  rw [exactSide_of_not_limited hlimit, multipleBelow_of_dvd (by decide) hfst.dvd] at hfst'
  rw [exactSide_of_not_limited hlimit, multipleBelow_of_dvd (by decide) hsnd.dvd] at hsnd'
  exact Prod.ext (Int32.toInt_inj.mp hfst') (Int32.toInt_inj.mp hsnd')

/-- The product and the quotient of the branch with a limit are those of the integers. -/
def ExactBranch (w h maxSize : Int32) : Prop :=
  0 < maxSize → maxSize < max w h →
    (min w h * maxSize).toInt = (min w h).toInt * maxSize.toInt ∧
      (min w h * maxSize / max w h).toInt =
        (min w h).toInt * maxSize.toInt / (max w h).toInt

theorem SizeRange.exactBranch (hsize : SizeRange w h maxSize) : ExactBranch w h maxSize := by
  obtain ⟨hw, hw'⟩ := hsize.width
  obtain ⟨hh, hh'⟩ := hsize.height
  have hmin := toInt_min (x := w) (y := h)
  have hmax := toInt_max (x := w) (y := h)
  exact fun hm hlt => toInt_scaled (by omega) (by omega) (by omega) (Int32.lt_iff_toInt_lt.mp hm)
    (Int32.lt_iff_toInt_lt.mp hlt)

/-- The video of a display: no overflow, sides that a decoder takes and that show the whole
display in proportion, and nothing more to round. -/
theorem video_size_proportional (hsize : SizeRange w h maxSize) :
    ExactBranch w h maxSize ∧
      VideoSide w.toInt maxSize.toInt (exactSide w.toInt (max w.toInt h.toInt) maxSize.toInt)
        (computeVideoSize w h maxSize).1.toInt ∧
      VideoSide h.toInt maxSize.toInt (exactSide h.toInt (max w.toInt h.toInt) maxSize.toInt)
        (computeVideoSize w h maxSize).2.toInt ∧
      (w ≤ h → (computeVideoSize w h maxSize).1 ≤ (computeVideoSize w h maxSize).2) ∧
      (h ≤ w → (computeVideoSize w h maxSize).2 ≤ (computeVideoSize w h maxSize).1) ∧
      computeVideoSize (computeVideoSize w h maxSize).1 (computeVideoSize w h maxSize).2 maxSize =
        computeVideoSize w h maxSize :=
  ⟨hsize.exactBranch, hsize.sides.1, hsize.sides.2, hsize.order.1, hsize.order.2, hsize.again⟩

/-- A phone whose longer side is limited: 1080 * 1024 / 2340 is 472.6. -/
theorem video_size_proportional_phone :
    SizeRange 2340 1080 1024 ∧ computeVideoSize 2340 1080 1024 = (1024, 472) ∧
      VideoSide 1080 1024 (exactSide 1080 2340 1024) 472 ∧
      computeVideoSize 1024 472 1024 = (1024, 472) := by
  have hsize : SizeRange 2340 1080 1024 := ⟨by decide, by decide, by decide⟩
  obtain ⟨-, -, hside, -, -, hagain⟩ := video_size_proportional hsize
  exact ⟨hsize, by decide, hside, hagain⟩

end RigControl.Server
