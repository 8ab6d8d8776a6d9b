import Mathlib.Logic.Function.Basic
import Mathlib.Tactic.Ring
import RigControl.Gtk.Render
import RigControl.Lib.MachineInt

/-!
# The buffers of the planes

`copy_plane` and `render_on_frame` of `render.c`, byte by byte: how much of a plane is
copied into its buffer, which grows and is used again for frames of other shapes, and
which bytes of the buffers `upload_plane` has GL read. Each byte of a buffer carries
the number of the frame that stored it. Both sections are under the lock, so a run is a
sequence of frames and renders.

A row of a texture starts `GL_UNPACK_ROW_LENGTH` pixels behind the one before, or its
width if that is 0; `GL_UNPACK_ALIGNMENT` is 1.
-/

namespace RigControl.Gtk

open RigControl.Lib

/-- What `render_on_frame` copies of an `rc_frame`. In a format it takes, each linesize
is at least the bytes of a row, and even where two chroma bytes make a pixel. -/
structure PlaneFrame where
  format : RcPixfmt
  width : Int32
  height : Int32
  linesize0 : Int32
  linesize1 : Int32
  linesize2 : Int32
  sized : 1 ≤ width.toInt ∧ 1 ≤ height.toInt
  luma : width.toInt ≤ linesize0.toInt
  i420 : format = .i420 → (width / 2).toInt ≤ linesize1.toInt ∧ (width / 2).toInt ≤ linesize2.toInt
  nv12 : format = .nv12 → width.toInt ≤ linesize1.toInt ∧ linesize1.toInt % 2 = 0
  deriving DecidableEq

/-- A call of `copy_plane`. -/
structure CopyCall where
  plane : Nat
  stride : Int32
  w : Int32
  h : Int32
  deriving DecidableEq

/-- The size it computes. -/
def CopyCall.need (c : CopyCall) : UInt64 := sizeT c.stride * sizeT (c.h - 1) + sizeT c.w

/-- The bytes from the first of a plane to its last. -/
def CopyCall.exact (c : CopyCall) : Int :=
  if c.h.toInt ≤ 0 then 0 else c.stride.toInt * (c.h.toInt - 1) + c.w.toInt

/-- The calls for a frame. -/
def PlaneFrame.calls (f : PlaneFrame) : List CopyCall :=
  match f.format with
  | .nv12 =>
    [⟨0, f.linesize0, f.width, f.height⟩, ⟨1, f.linesize1, f.width, f.height / 2⟩]
  | .i420 =>
    [⟨0, f.linesize0, f.width, f.height⟩, ⟨1, f.linesize1, f.width / 2, f.height / 2⟩,
      ⟨2, f.linesize2, f.width / 2, f.height / 2⟩]
  | .other _ => []

/-- A buffer: its size, the stride of what is in it, and by which frame each byte was
stored. -/
structure PlaneBuf where
  cap : UInt64
  stride : Int32
  cells : Nat → Option Nat

/-- A call of `upload_plane` for a frame, and the buffer it had. -/
structure PlaneRead where
  frame : Nat
  upload : Upload
  cells : Nat → Option Nat

structure Planes where
  buf : Nat → PlaneBuf
  vw : Int32
  vh : Int32
  nv12 : Bool
  havePending : Bool
  /-- `g_realloc` has ended the program. -/
  aborted : Bool
  -- the frames that were taken, the calls of `copy_plane` and of `upload_plane`
  taken : List PlaneFrame
  copies : List CopyCall
  reads : List PlaneRead

namespace Planes

def start : Planes where
  buf _ := ⟨0, 0, fun _ => none⟩
  vw := 0
  vh := 0
  nv12 := false
  havePending := false
  aborted := false
  taken := []
  copies := []
  reads := []

/-- `copy_plane`. No object has `2 ^ 63` bytes. -/
def copyPlane (s : Planes) (c : CopyCall) : Planes :=
  if s.aborted then s
  else
    let s := { s with copies := s.copies ++ [c] }
    let b := s.buf c.plane
    if b.cap < c.need ∧ 2 ^ 63 ≤ c.need.toNat then { s with aborted := true }
    else
      let b :=
        if b.cap < c.need then
          { b with cap := c.need, cells := fun o => if o < b.cap.toNat then b.cells o else none }
        else b
      let stored : PlaneBuf :=
        { b with
          stride := c.stride
          cells := fun o => if o < c.need.toNat then some s.taken.length else b.cells o }
      { s with buf := Function.update s.buf c.plane stored }

/-- The lock section of `render_on_frame`, for a format it takes. -/
def store (s : Planes) (f : PlaneFrame) : Planes :=
  let s := { s with
    vw := f.width, vh := f.height, nv12 := f.format = .nv12, taken := s.taken ++ [f] }
  let s := f.calls.foldl copyPlane s
  if s.aborted then s else { s with havePending := true }

/-- The calls of `upload_plane` for the frame in the buffers. -/
def uploads (s : Planes) : List Upload :=
  planeUploads s.vw.toInt s.vh.toInt s.nv12 ⟨[], (s.buf 0).stride.toInt⟩
    ⟨[], (s.buf 1).stride.toInt⟩ ⟨[], (s.buf 2).stride.toInt⟩

/-- The lock section of `on_render`. -/
def render (s : Planes) : Planes :=
  if s.havePending ∧ 0 < s.vw.toInt ∧ 0 < s.vh.toInt then
    { s with
      havePending := false
      reads := s.reads ++ s.uploads.map fun u => ⟨s.taken.length, u, (s.buf u.tex).cells⟩ }
  else s

end Planes

inductive PlaneAct where
  | frame (f : PlaneFrame)
  | render

def planesStep (s : Planes) : PlaneAct → Option Planes
  | .frame f =>
    if s.aborted then none
    else match f.format with
      | .other _ => some s
      | _ => some (s.store f)
  | .render => if s.aborted then none else some s.render

def planesLts : Lts Planes PlaneAct := { init := .start, step := planesStep }

/-! ## What GL reads -/

namespace Upload

variable {u : Upload} {o : Nat}

def pixel (u : Upload) : Int := if u.rg then 2 else 1

def rowLength (u : Upload) : Int := if u.stridePx = 0 then u.w else u.stridePx

/-- GL reads the byte at `o`: one of a pixel in a column and a row. -/
def Reads (u : Upload) (o : Nat) : Prop :=
  ∃ row col k : Int, 0 ≤ row ∧ row < u.h ∧ 0 ≤ col ∧ col < u.w ∧ 0 ≤ k ∧ k < u.pixel ∧
    (o : Int) = (row * u.rowLength + col) * u.pixel + k

/-- What is read lies in front of the end of the last row. -/
theorem Reads.lt (h : u.Reads o) (hlen : 0 ≤ u.rowLength) :
    0 < u.h ∧ 0 < u.w ∧ (o : Int) < u.rowLength * u.pixel * (u.h - 1) + u.w * u.pixel := by
  obtain ⟨row, col, k, hrow, hrow', hcol, hcol', hk, hk', ho⟩ := h
  have hpixel : 0 < u.pixel := Int.lt_of_le_of_lt hk hk'
  refine ⟨by omega, by omega, ?_⟩
  have hrows : u.rowLength * u.pixel * row ≤ u.rowLength * u.pixel * (u.h - 1) :=
    Int.mul_le_mul_of_nonneg_left (by omega) (Int.mul_nonneg hlen (Int.le_of_lt hpixel))
  have hcols : (col + 1) * u.pixel ≤ u.w * u.pixel :=
    Int.mul_le_mul_of_nonneg_right (by omega) (Int.le_of_lt hpixel)
  have hsplit : (row * u.rowLength + col) * u.pixel + k =
      u.rowLength * u.pixel * row + (col + 1) * u.pixel - (u.pixel - k) := by
    ring
  omega

end Upload

/-! ## The size of a copy -/

namespace CopyCall

variable {c : CopyCall}

/-- A plane with rows of so many bytes, perhaps without rows. -/
structure Sized (c : CopyCall) : Prop where
  w : 0 ≤ c.w.toInt
  stride : c.w.toInt ≤ c.stride.toInt
  h : 0 ≤ c.h.toInt

theorem need_toNat (h : 0 ≤ c.h.toInt) :
    (c.need.toNat : Int) = (c.stride.toInt * (c.h.toInt - 1) + c.w.toInt) % 2 ^ 64 := by
  have hlt := c.h.toInt_lt
  have hone : (1 : Int32).toInt = 1 := Int32.toInt_one
  have hsub : (c.h - 1).toInt = c.h.toInt - 1 := by
    rw [toInt_sub_of_range (by omega) (by omega), hone]
  rw [need, sizeT, sizeT, sizeT, hsub, ← UInt64.ofInt_mul, ← UInt64.ofInt_add, toNat_ofInt]

theorem exact_range (h : c.Sized) : 0 ≤ c.exact ∧ c.exact < 2 ^ 63 := by
  obtain ⟨hw, hstride, hh⟩ := h
  unfold exact
  split
  · decide
  · have hs := c.stride.toInt_lt
    have hrows := c.h.toInt_lt
    have hle : c.stride.toInt * (c.h.toInt - 1) ≤ 2 ^ 31 * 2 ^ 31 :=
      Int.mul_le_mul (by omega) (by omega) (by omega) (by decide)
    have hpos : 0 ≤ c.stride.toInt * (c.h.toInt - 1) := Int.mul_nonneg (by omega) (by omega)
    omega

/-- The computed size is the exact one but for a plane without rows, where it wraps
around if the rows it does not have would be padded. -/
theorem need_iff (h : c.Sized) :
    (c.need.toNat : Int) = c.exact ↔ 0 < c.h.toInt ∨ c.stride = c.w := by
  have hneed := need_toNat h.h
  have hrange := exact_range h
  obtain ⟨hw, hstride, hh⟩ := h
  have hs := c.stride.toInt_lt
  rcases Int.lt_or_le 0 c.h.toInt with hpos | hzero
  · refine iff_of_true ?_ (.inl hpos)
    have hexact : c.exact = c.stride.toInt * (c.h.toInt - 1) + c.w.toInt :=
      if_neg (Int.not_le.mpr hpos)
    rw [hneed, ← hexact]
    exact Int.emod_eq_of_lt hrange.1 (by omega)
  · have hexact : c.exact = 0 := if_pos hzero
    have hnone : c.h.toInt = 0 := by omega
    rw [hneed, hexact, hnone, ← Int32.toInt_inj]
    omega

theorem need_lt (h : c.Sized) (hneed : (c.need.toNat : Int) = c.exact) : c.need.toNat < 2 ^ 63 := by
  have hrange := exact_range h
  omega

end CopyCall

namespace PlaneFrame

variable {f : PlaneFrame}

theorem width_half (f : PlaneFrame) : (f.width / 2).toInt = f.width.toInt / 2 := by
  have hpos := f.sized.1
  rw [toInt_div_of_nonneg (by omega)]
  rfl

theorem height_half (f : PlaneFrame) : (f.height / 2).toInt = f.height.toInt / 2 := by
  have hpos := f.sized.2
  rw [toInt_div_of_nonneg (by omega)]
  rfl

theorem calls_sized {c : CopyCall} (hc : c ∈ f.calls) : c.Sized := by
  obtain ⟨hw, hh⟩ := f.sized
  have hw0 : 0 ≤ f.width.toInt := by omega
  have hh0 : 0 ≤ f.height.toInt := by omega
  have hwhalf : 0 ≤ (f.width / 2).toInt := by rw [f.width_half]; omega
  have hhhalf : 0 ≤ (f.height / 2).toInt := by rw [f.height_half]; omega
  unfold calls at hc
  split at hc
  · rename_i hformat
    obtain ⟨hrow, -⟩ := f.nv12 hformat
    rcases List.mem_pair.mp hc with rfl | rfl
    · exact ⟨hw0, f.luma, hh0⟩
    · exact ⟨hw0, hrow, hhhalf⟩
  · rename_i hformat
    obtain ⟨hu, hv⟩ := f.i420 hformat
    simp only [List.mem_cons, List.not_mem_nil, or_false] at hc
    rcases hc with rfl | rfl | rfl
    · exact ⟨hw0, f.luma, hh0⟩
    · exact ⟨hwhalf, hu, hhhalf⟩
    · exact ⟨hwhalf, hv, hhhalf⟩
  · cases hc

/-- The chroma planes have a row, or rows without padding. -/
def ChromaFits (f : PlaneFrame) : Prop :=
  match f.format with
  | .nv12 => 2 ≤ f.height.toInt ∨ f.linesize1 = f.width
  | .i420 => 2 ≤ f.height.toInt ∨ f.linesize1 = f.width / 2 ∧ f.linesize2 = f.width / 2
  | .other _ => True

theorem chromaFits_iff : (∀ c ∈ f.calls, (c.need.toNat : Int) = c.exact) ↔ f.ChromaFits := by
  have hneed : (∀ c ∈ f.calls, (c.need.toNat : Int) = c.exact) ↔
      ∀ c ∈ f.calls, 0 < c.h.toInt ∨ c.stride = c.w :=
    forall₂_congr fun c hc => CopyCall.need_iff (calls_sized hc)
  have hluma : 0 < f.height.toInt := by have := f.sized.2; omega
  have hchroma : 0 < (f.height / 2).toInt ↔ 2 ≤ f.height.toInt := by
    rw [f.height_half]
    omega
  rw [hneed]
  unfold calls ChromaFits
  split <;> simp [-Int32.toInt_div, hluma, hchroma, or_and_left]

end PlaneFrame

/-! ## What is in the buffers -/

namespace Planes

variable {s s' : Planes} {c : CopyCall} {cs : List CopyCall} {f : PlaneFrame}

/-- Copying a plane leaves all but the buffers. -/
structure Kept (s s' : Planes) : Prop where
  vw : s'.vw = s.vw
  vh : s'.vh = s.vh
  nv12 : s'.nv12 = s.nv12
  havePending : s'.havePending = s.havePending
  taken : s'.taken = s.taken
  reads : s'.reads = s.reads

theorem kept_copyPlane (s : Planes) (c : CopyCall) : Kept s (s.copyPlane c) := by
  unfold copyPlane
  split
  · exact ⟨rfl, rfl, rfl, rfl, rfl, rfl⟩
  · dsimp only
    split <;> exact ⟨rfl, rfl, rfl, rfl, rfl, rfl⟩

theorem kept_foldl (cs : List CopyCall) (s : Planes) : Kept s (cs.foldl copyPlane s) := by
  induction cs generalizing s with
  | nil => exact ⟨rfl, rfl, rfl, rfl, rfl, rfl⟩
  | cons c cs ih =>
    have h := kept_copyPlane s c
    have hrest := ih (s.copyPlane c)
    exact ⟨hrest.vw.trans h.vw, hrest.vh.trans h.vh, hrest.nv12.trans h.nv12,
      hrest.havePending.trans h.havePending, hrest.taken.trans h.taken, hrest.reads.trans h.reads⟩

theorem copyPlane_aborted (h : s.aborted = true) : s.copyPlane c = s := by
  unfold copyPlane
  rw [if_pos h]

theorem copyPlane_copies (h : s.aborted = false) : (s.copyPlane c).copies = s.copies ++ [c] ∧
    ((s.copyPlane c).aborted = true → 2 ^ 63 ≤ c.need.toNat) := by
  unfold copyPlane
  rw [if_neg (by simp [h])]
  dsimp only
  split
  · rename_i hbig
    exact ⟨rfl, fun _ => hbig.2⟩
  · exact ⟨rfl, fun habort => by simp [h] at habort⟩

/-- The calls are made one after the other, up to one that ends the program. -/
theorem foldl_copies (cs : List CopyCall) (h : s.aborted = false) :
    ∃ done, done <+: cs ∧ (cs.foldl copyPlane s).copies = s.copies ++ done ∧
      ((cs.foldl copyPlane s).aborted = false → done = cs) ∧
      ((cs.foldl copyPlane s).aborted = true → ∃ c ∈ done, 2 ^ 63 ≤ c.need.toNat) := by
  induction cs generalizing s with
  | nil =>
    exact ⟨[], List.nil_prefix, (List.append_nil _).symm, fun _ => rfl,
      fun habort => by simp [h] at habort⟩
  | cons c cs ih =>
    obtain ⟨hcopies, habort⟩ := @copyPlane_copies s c h
    rw [List.foldl_cons]
    cases hab : (s.copyPlane c).aborted with
    | true =>
      have hstay : cs.foldl copyPlane (s.copyPlane c) = s.copyPlane c := by
        clear ih
        induction cs with
        | nil => rfl
        | cons d cs ih => rw [List.foldl_cons, copyPlane_aborted hab, ih]
      rw [hstay, hab]
      exact ⟨[c], List.prefix_append [c] cs, hcopies, by simp,
        fun _ => ⟨c, List.mem_singleton_self c, habort hab⟩⟩
    | false =>
      obtain ⟨done, hpre, hdone, hall, hbig⟩ := ih hab
      refine ⟨c :: done, (List.prefix_cons_inj c).mpr hpre, ?_, fun hlive => ?_, fun hdead => ?_⟩
      · rw [hdone, hcopies, List.append_assoc, List.singleton_append]
      · rw [hall hlive]
      · obtain ⟨d, hd, hneed⟩ := hbig hdead
        exact ⟨d, List.mem_cons_of_mem c hd, hneed⟩

/-- The buffer of a call holds the plane of the newest frame. -/
structure Holds (s : Planes) (c : CopyCall) : Prop where
  stride : (s.buf c.plane).stride = c.stride
  cells : ∀ o < c.need.toNat, (s.buf c.plane).cells o = some s.taken.length

theorem copyPlane_holds (h : s.aborted = false) (hneed : c.need.toNat < 2 ^ 63) :
    (s.copyPlane c).aborted = false ∧ (s.copyPlane c).Holds c ∧
      ∀ i, i ≠ c.plane → (s.copyPlane c).buf i = s.buf i := by
  unfold copyPlane
  rw [if_neg (by simp [h])]
  dsimp only
  rw [if_neg (by omega)]
  refine ⟨h, ⟨?_, fun o ho => ?_⟩, fun i hi => ?_⟩
  · simp only [Function.update_self]
  · simp only [Function.update_self, if_pos ho]
  · simp only [Function.update_of_ne hi]

theorem Holds.of_buf (h : s.Holds c) (hbuf : s'.buf c.plane = s.buf c.plane)
    (htaken : s'.taken = s.taken) : s'.Holds c :=
  ⟨by rw [hbuf, h.stride], fun o ho => by rw [hbuf, htaken, h.cells o ho]⟩

theorem foldl_holds (hplanes : (cs.map (·.plane)).Nodup) (hneed : ∀ c ∈ cs, c.need.toNat < 2 ^ 63)
    (h : s.aborted = false) :
    (cs.foldl copyPlane s).aborted = false ∧ (∀ c ∈ cs, (cs.foldl copyPlane s).Holds c) ∧
      ∀ i, i ∉ cs.map (·.plane) → (cs.foldl copyPlane s).buf i = s.buf i := by
  induction cs generalizing s with
  | nil => exact ⟨h, fun c hc => absurd hc List.not_mem_nil, fun _ _ => rfl⟩
  | cons c cs ih =>
    rw [List.map_cons, List.nodup_cons] at hplanes
    obtain ⟨hlive, hholds, hother⟩ := copyPlane_holds h (hneed c List.mem_cons_self)
    obtain ⟨hlive', hholds', hother'⟩ := ih hplanes.2
      (fun d hd => hneed d (List.mem_cons_of_mem c hd)) hlive
    rw [List.foldl_cons]
    refine ⟨hlive', fun d hd => ?_, fun i hi => ?_⟩
    · rcases List.mem_cons.mp hd with rfl | hd
      · exact hholds.of_buf (hother' d.plane hplanes.1) (kept_foldl cs _).taken
      · exact hholds' d hd
    · rw [List.map_cons, List.mem_cons, not_or] at hi
      exact (hother' i hi.2).trans (hother i hi.1)

/-! ## What is read of them -/

theorem planes_nodup (f : PlaneFrame) : (f.calls.map (·.plane)).Nodup := by
  unfold PlaneFrame.calls
  split <;> simp

/-- An upload with the rows of a call reads nothing but what the call has stored. -/
theorem Holds.covers {u : Upload} {o : Nat} (h : s.Holds c)
    (hexact : (c.need.toNat : Int) = c.exact) (htex : u.tex = c.plane) (hh : u.h = c.h.toInt)
    (hw : u.w * u.pixel ≤ c.w.toInt)
    (hrow : 0 < u.w → 0 ≤ u.rowLength ∧ u.rowLength * u.pixel = c.stride.toInt)
    (hread : u.Reads o) : (s.buf u.tex).cells o = some s.taken.length := by
  have hpos : 0 < u.w := by
    obtain ⟨-, col, -, -, -, hcol, hcol', -⟩ := hread
    omega
  obtain ⟨hlen, hstride⟩ := hrow hpos
  obtain ⟨hrows, -, hlt⟩ := hread.lt hlen
  rw [hstride, hh] at hlt
  have hc : c.exact = c.stride.toInt * (c.h.toInt - 1) + c.w.toInt := if_neg (by omega)
  rw [htex]
  exact h.cells o (by omega)

/-- A plane with a byte for a pixel. -/
theorem Holds.covers_bytes {i : Nat} {stride w h : Int32} {o : Nat}
    (hholds : s.Holds ⟨i, stride, w, h⟩)
    (hexact : ((CopyCall.need ⟨i, stride, w, h⟩).toNat : Int) = CopyCall.exact ⟨i, stride, w, h⟩)
    (hw : w.toInt ≤ stride.toInt)
    (hread : (⟨i, [], (s.buf i).stride.toInt, w.toInt, h.toInt, false⟩ : Upload).Reads o) :
    (s.buf i).cells o = some s.taken.length := by
  have hstride : (s.buf i).stride = stride := hholds.stride
  rw [hstride] at hread
  refine @Holds.covers s ⟨i, stride, w, h⟩ _ o hholds hexact rfl rfl ?_ (fun hpos => ?_) hread
  · exact (Int.mul_one _).le
  · have hne : stride.toInt ≠ 0 := by
      have hpos' : 0 < w.toInt := hpos
      omega
    have hlen : Upload.rowLength ⟨i, [], stride.toInt, w.toInt, h.toInt, false⟩ = stride.toInt :=
      if_neg hne
    rw [hlen]
    have hpos' : 0 < w.toInt := hpos
    exact ⟨by omega, Int.mul_one _⟩

/-- The chroma plane of NV12, with two bytes for a pixel. -/
theorem Holds.covers_pairs {stride w h : Int32} {o : Nat}
    (hholds : s.Holds ⟨1, stride, w, h⟩)
    (hexact : ((CopyCall.need ⟨1, stride, w, h⟩).toNat : Int) = CopyCall.exact ⟨1, stride, w, h⟩)
    (hw0 : 0 ≤ w.toInt) (hw : w.toInt ≤ stride.toInt) (heven : stride.toInt % 2 = 0)
    (hread : (⟨1, [], (s.buf 1).stride.toInt / 2, w.toInt / 2, h.toInt, true⟩ : Upload).Reads o) :
    (s.buf 1).cells o = some s.taken.length := by
  have hstride : (s.buf 1).stride = stride := hholds.stride
  rw [hstride] at hread
  refine @Holds.covers s ⟨1, stride, w, h⟩ _ o hholds hexact rfl rfl ?_ (fun hpos => ?_) hread
  · show w.toInt / 2 * 2 ≤ w.toInt
    omega
  · have hpos' : 0 < w.toInt / 2 := hpos
    have hlen : Upload.rowLength ⟨1, [], stride.toInt / 2, w.toInt / 2, h.toInt, true⟩ =
        stride.toInt / 2 := if_neg (by show stride.toInt / 2 ≠ 0; omega)
    rw [hlen]
    refine ⟨by omega, ?_⟩
    show stride.toInt / 2 * 2 = stride.toInt
    omega

/-- The newest frame is in the buffers, and the sizes are those of it. -/
structure Current (s : Planes) (f : PlaneFrame) : Prop where
  vw : s.vw = f.width
  vh : s.vh = f.height
  nv12 : s.nv12 = decide (f.format = .nv12)
  taken : ∀ n, f.format ≠ .other n
  holds : ∀ c ∈ f.calls, s.Holds c

/-- Whatever `upload_plane` has GL read was stored for the newest frame. -/
theorem Current.covers (h : s.Current f) (hfits : f.ChromaFits) {u : Upload} (hu : u ∈ s.uploads)
    {o : Nat} (hread : u.Reads o) : (s.buf u.tex).cells o = some s.taken.length := by
  have hexact := PlaneFrame.chromaFits_iff.mpr hfits
  have hholds := h.holds
  obtain ⟨hw, hh⟩ := f.sized
  have hw2 : f.width.toInt.tdiv 2 = (f.width / 2).toInt := by
    rw [f.width_half, Int.tdiv_eq_ediv_of_nonneg (by omega)]
  have hh2 : f.height.toInt.tdiv 2 = (f.height / 2).toInt := by
    rw [f.height_half, Int.tdiv_eq_ediv_of_nonneg (by omega)]
  rw [uploads, h.vw, h.vh, h.nv12, planeUploads, hw2, hh2] at hu
  unfold PlaneFrame.calls at hexact hholds
  cases hformat : f.format with
  | other n => exact absurd hformat (h.taken n)
  | nv12 =>
    obtain ⟨hrow, heven⟩ := f.nv12 hformat
    rw [hformat] at hu hexact hholds
    simp only [List.mem_cons, List.not_mem_nil, or_false, forall_eq_or_imp, forall_eq]
      at hexact hholds
    have hstride : (s.buf 1).stride.toInt.tdiv 2 = (s.buf 1).stride.toInt / 2 := by
      rw [show (s.buf 1).stride = f.linesize1 from hholds.2.stride,
        Int.tdiv_eq_ediv_of_nonneg (by omega)]
    rw [if_pos (decide_eq_true rfl), List.mem_pair, hstride, f.width_half] at hu
    rcases hu with rfl | rfl
    · exact hholds.1.covers_bytes hexact.1 f.luma hread
    · exact hholds.2.covers_pairs hexact.2 (by omega) hrow heven hread
  | i420 =>
    obtain ⟨hrow1, hrow2⟩ := f.i420 hformat
    rw [hformat] at hu hexact hholds
    simp only [List.mem_cons, List.not_mem_nil, or_false, forall_eq_or_imp, forall_eq]
      at hexact hholds
    rw [if_neg (by simp)] at hu
    simp only [List.mem_cons, List.not_mem_nil, or_false] at hu
    rcases hu with rfl | rfl | rfl
    · exact hholds.1.covers_bytes hexact.1 f.luma hread
    · exact hholds.2.1.covers_bytes hexact.2.1 hrow1 hread
    · exact hholds.2.2.covers_bytes hexact.2.2 hrow2 hread

/-! ## Over a run -/

/-- The sizes that were computed are exact, and every byte GL has read was stored for the
frame it was read for. -/
structure Right (s : Planes) : Prop where
  sizes : ∀ c ∈ s.copies, (c.need.toNat : Int) = c.exact
  stored : ∀ r ∈ s.reads, ∀ o, r.upload.Reads o → r.cells o = some r.frame

def AllFit (s : Planes) : Prop := ∀ f ∈ s.taken, f.ChromaFits

/-- The calls are those for the frames, up to one with a wrong size that has ended the
program; and with frames that fit none ends it, and what is read is right. -/
structure Inv (s : Planes) : Prop where
  called : ∀ c ∈ s.copies, ∃ f ∈ s.taken, c ∈ f.calls
  copied : s.aborted = false → s.copies = s.taken.flatMap PlaneFrame.calls
  wrong : s.aborted = true → ∃ c ∈ s.copies, (c.need.toNat : Int) ≠ c.exact
  stored : s.AllFit → ∀ r ∈ s.reads, ∀ o, r.upload.Reads o → r.cells o = some r.frame
  pending : s.AllFit → s.havePending = true → ∃ f, s.Current f ∧ f.ChromaFits

theorem inv_start : start.Inv where
  called := by simp [start]
  copied _ := rfl
  wrong := by simp [start]
  stored := by simp [start]
  pending := by simp [start]

theorem Inv.right_iff (h : s.Inv) : s.Right ↔ s.AllFit := by
  constructor
  · intro hright f hf
    have hlive : s.aborted = false := by
      by_contra hdead
      rw [Bool.not_eq_false] at hdead
      obtain ⟨c, hc, hne⟩ := h.wrong hdead
      exact hne (hright.sizes c hc)
    refine PlaneFrame.chromaFits_iff.mp fun c hc => hright.sizes c ?_
    rw [h.copied hlive]
    exact List.mem_flatMap.mpr ⟨f, hf, hc⟩
  · refine fun hfit => ⟨fun c hc => ?_, h.stored hfit⟩
    obtain ⟨f, hf, hcall⟩ := h.called c hc
    exact PlaneFrame.chromaFits_iff.mpr (hfit f hf) c hcall

/-- The frame as the lock section begins with it. -/
def opened (s : Planes) (f : PlaneFrame) : Planes :=
  { s with vw := f.width, vh := f.height, nv12 := f.format = .nv12, taken := s.taken ++ [f] }

theorem store_eq (s : Planes) (f : PlaneFrame) :
    s.store f = if (f.calls.foldl copyPlane (s.opened f)).aborted then
        f.calls.foldl copyPlane (s.opened f)
      else { f.calls.foldl copyPlane (s.opened f) with havePending := true } := rfl

theorem Inv.store (h : s.Inv) (hlive : s.aborted = false) (hf : ∀ n, f.format ≠ .other n) :
    (s.store f).Inv := by
  have hopened : (s.opened f).aborted = false := hlive
  have hkept := kept_foldl f.calls (s.opened f)
  obtain ⟨done, hpre, hcopies, hall, hbig⟩ := foldl_copies f.calls hopened
  have hholds := @foldl_holds (s.opened f) f.calls (planes_nodup f)
  rw [store_eq]
  generalize f.calls.foldl copyPlane (s.opened f) = t at hkept hcopies hall hbig hholds ⊢
  have htaken : t.taken = s.taken ++ [f] := hkept.taken
  have hcopies' : t.copies = s.copies ++ done := hcopies
  have hcalled : ∀ c ∈ t.copies, ∃ g ∈ t.taken, c ∈ g.calls := by
    intro c hc
    rw [hcopies'] at hc
    rw [htaken]
    rcases List.mem_append.mp hc with hc | hc
    · obtain ⟨g, hg, hcall⟩ := h.called c hc
      exact ⟨g, List.mem_append_left _ hg, hcall⟩
    · exact ⟨f, by simp, hpre.subset hc⟩
  have hfitS : t.AllFit → s.AllFit ∧ f.ChromaFits := by
    intro hfit
    rw [AllFit, htaken] at hfit
    exact ⟨fun g hg => hfit g (List.mem_append_left _ hg), hfit f (by simp)⟩
  have hstored : t.AllFit → ∀ r ∈ t.reads, ∀ o, r.upload.Reads o → r.cells o = some r.frame := by
    intro hfit r hr
    rw [hkept.reads] at hr
    exact h.stored (hfitS hfit).1 r hr
  have hwrong : ∀ c ∈ done, 2 ^ 63 ≤ c.need.toNat → (c.need.toNat : Int) ≠ c.exact := by
    intro c hc hneed hexact
    have hlt := CopyCall.need_lt (PlaneFrame.calls_sized (hpre.subset hc)) hexact
    omega
  split
  · rename_i hdead
    obtain ⟨c, hc, hneed⟩ := hbig hdead
    refine ⟨hcalled, fun habort => ?_, fun _ => ⟨c, ?_, hwrong c hc hneed⟩, hstored, ?_⟩
    · simp [hdead] at habort
    · rw [hcopies']
      exact List.mem_append_right _ hc
    · intro hfit
      have hexact := PlaneFrame.chromaFits_iff.mpr (hfitS hfit).2
      exact absurd (hexact c (hpre.subset hc)) (hwrong c hc hneed)
  · rename_i hdead
    rw [Bool.not_eq_true] at hdead
    refine ⟨hcalled, fun _ => ?_, fun habort => ?_, hstored, fun hfit _ => ⟨f, ?_, (hfitS hfit).2⟩⟩
    · show t.copies = t.taken.flatMap PlaneFrame.calls
      rw [hcopies', htaken, h.copied hlive, hall hdead, List.flatMap_append, List.flatMap_singleton]
    · have habort' : t.aborted = true := habort
      simp [hdead] at habort'
    · have hexact := PlaneFrame.chromaFits_iff.mpr (hfitS hfit).2
      have hall := (hholds (fun c hc => CopyCall.need_lt (PlaneFrame.calls_sized hc)
        (hexact c hc)) hopened).2.1
      exact ⟨hkept.vw, hkept.vh, hkept.nv12, hf, fun c hc => (hall c hc).of_buf rfl rfl⟩

theorem Inv.render (h : s.Inv) : s.render.Inv := by
  unfold Planes.render
  split
  · rename_i hpending
    refine ⟨h.called, h.copied, h.wrong, fun hfit r hr o hread => ?_, fun _ hp => by cases hp⟩
    rcases List.mem_append.mp hr with hr | hr
    · exact h.stored hfit r hr o hread
    · obtain ⟨u, hu, rfl⟩ := List.mem_map.mp hr
      obtain ⟨f, hcurrent, hfits⟩ := h.pending hfit hpending.1
      exact hcurrent.covers hfits hu hread
  · exact h

theorem Inv.step {a : PlaneAct} (h : s.Inv) (hs : planesStep s a = some s') : s'.Inv := by
  cases a with
  | frame f =>
    simp only [planesStep] at hs
    split at hs
    · cases hs
    · rename_i hdead
      rw [Bool.not_eq_true] at hdead
      split at hs
      · cases hs
        exact h
      · rename_i hformat
        cases hs
        exact h.store hdead hformat
  | render =>
    simp only [planesStep] at hs
    split at hs
    · cases hs
    · cases hs
      exact h.render

theorem taken_store (s : Planes) (f : PlaneFrame) : (s.store f).taken = s.taken ++ [f] := by
  have hkept := kept_foldl f.calls (s.opened f)
  rw [store_eq]
  split <;> exact hkept.taken

theorem taken_render (s : Planes) : s.render.taken = s.taken := by
  unfold Planes.render
  split <;> rfl

theorem allFit_step {a : PlaneAct} (hs : planesStep s a = some s') :
    s'.AllFit ↔ s.AllFit ∧ ∀ f, a = .frame f → f.ChromaFits := by
  cases a with
  | frame f =>
    simp only [planesStep] at hs
    split at hs
    · cases hs
    · split at hs
      · rename_i hformat
        cases hs
        have hfits : f.ChromaFits := by simp only [PlaneFrame.ChromaFits, hformat]
        simp [hfits]
      · cases hs
        simp only [AllFit, taken_store, List.mem_append, List.mem_singleton, or_imp, forall_and,
          forall_eq, PlaneAct.frame.injEq, forall_eq']
  | render =>
    simp only [planesStep] at hs
    split at hs
    · cases hs
    · cases hs
      simp [AllFit, taken_render]

theorem allFit_run {as : List PlaneAct} (h : planesLts.run s as = some s') :
    s'.AllFit ↔ s.AllFit ∧ ∀ f, .frame f ∈ as → f.ChromaFits := by
  induction as generalizing s with
  | nil =>
    obtain rfl : s = s' := Option.some.inj h
    simp
  | cons a as ih =>
    obtain ⟨t, ht, h⟩ := Lts.run_cons.mp h
    rw [ih h, allFit_step ht, and_assoc]
    simp only [List.mem_cons, or_imp, forall_and, eq_comm]

end Planes

open Planes

/-- **When planes are copied and read as they are.** In a run of frames and renders every
size that `copy_plane` computes is exact, and every byte that `upload_plane` has GL read
was stored for the frame it is uploaded for, exactly if each frame has two rows of
pixels or chroma planes without padding. -/
theorem planes_right_iff {as : List PlaneAct} {s : Planes}
    (h : planesLts.run planesLts.init as = some s) :
    s.Right ↔ ∀ f, .frame f ∈ as → f.ChromaFits := by
  have hstep : ∀ (s : Planes) a (s' : Planes), s.Inv → planesLts.step s a = some s' → s'.Inv :=
    fun _ _ _ hi hs => hi.step hs
  have hinv : s.Inv := Lts.invariant hstep inv_start h
  rw [hinv.right_iff, allFit_run h]
  exact and_iff_right (by simp [AllFit, planesLts, start])

/-- An NV12 frame with padding. -/
def paddedFrame : PlaneFrame :=
  { format := .nv12, width := 3, height := 2, linesize0 := 4, linesize1 := 4, linesize2 := 0,
    sized := by decide, luma := by decide, i420 := by decide, nv12 := by decide }

/-- An I420 frame of another size. -/
def largerFrame : PlaneFrame :=
  { format := .i420, width := 5, height := 4, linesize0 := 8, linesize1 := 4, linesize2 := 4,
    sized := by decide, luma := by decide, i420 := by decide, nv12 := by decide }

/-- An I420 frame with one row of two pixels, and padded chroma planes. -/
def flatFrame : PlaneFrame :=
  { format := .i420, width := 2, height := 1, linesize0 := 2, linesize1 := 2, linesize2 := 2,
    sized := by decide, luma := by decide, i420 := by decide, nv12 := by decide }

theorem planes_right_padded :
    ∃ s, planesLts.run planesLts.init [.frame paddedFrame, .render, .frame largerFrame, .render] =
      some s ∧ s.Right := by
  refine ⟨_, rfl, (@planes_right_iff [.frame paddedFrame, .render, .frame largerFrame, .render]
    _ rfl).mpr ?_⟩
  simp only [List.mem_cons, List.not_mem_nil, or_false, PlaneAct.frame.injEq, reduceCtorEq,
    false_or, forall_eq_or_imp, forall_eq]
  exact ⟨.inl (by decide), .inl (by decide)⟩

/-- The first chroma plane has no row to copy, and a size of all but one byte of the
address space; the program ends there. -/
theorem planes_wrong_flat :
    ∃ s, planesLts.run planesLts.init [.frame flatFrame] = some s ∧ s.aborted = true ∧
      s.copies.map (·.need.toNat) = [2, 2 ^ 64 - 1] ∧ s.copies.map (·.exact) = [2, 0] ∧
      ¬s.Right := by
  have hcopies : (start.store flatFrame).copies = [⟨0, 2, 2, 1⟩, ⟨1, 2, 1, 0⟩] := by decide
  have hneed : (CopyCall.need ⟨1, 2, 1, 0⟩).toNat = 2 ^ 64 - 1 := by decide
  have hexact : CopyCall.exact ⟨1, 2, 1, 0⟩ = 0 := by decide
  refine ⟨start.store flatFrame, rfl, by decide, ?_, ?_, fun hright => ?_⟩
  · rw [hcopies]
    decide
  · rw [hcopies]
    decide
  · have hsize := hright.sizes ⟨1, 2, 1, 0⟩ (by rw [hcopies]; simp)
    rw [hneed, hexact] at hsize
    omega

end RigControl.Gtk
