import Mathlib.Algebra.Group.Int.Defs
import RigControl.Lib.Lts

/-!
# Frames on their way to the screen

`render.c` for a live session with its GL program. The core thread stores a frame under
the lock and, if none is scheduled, has an idle callback scheduled; on the UI thread the
callback clears the flag and queues a render, and a render uploads the frame that is
stored. Every lock section, every atomic operation and every call into GLib is a step,
so a run is an interleaving of the two threads. Two lists keep what was stored and what
was uploaded. What is drawn with the textures, and logging, are left out.
-/

namespace RigControl.Gtk

open RigControl.Lib

/-- A plane as `copy_plane` copies it. -/
structure Plane where
  data : List UInt8
  stride : Int
  deriving DecidableEq, Repr

inductive RcPixfmt where
  | i420 | nv12
  | other (n : Nat)
  deriving DecidableEq, Repr

/-- `rc_frame`; a decoded frame has a size. -/
structure RcFrame where
  width : Int
  height : Int
  format : RcPixfmt
  data0 : Plane
  data1 : Plane
  data2 : Plane
  ptsUs : Int
  recvMs : Int
  fullRange : Bool
  bt709 : Bool
  sized : 0 < width ∧ 0 < height
  deriving DecidableEq

/-- A call of `upload_plane`: the texture, and what it is filled with; `rg` is
`GL_RG8`. -/
structure Upload where
  tex : Nat
  data : List UInt8
  stridePx : Int
  w : Int
  h : Int
  rg : Bool
  deriving DecidableEq, Repr

/-- What `on_render` uploads, and with which size, colours and timestamps. -/
structure Shown where
  vw : Int
  vh : Int
  nv12 : Bool
  fullRange : Bool
  bt709 : Bool
  uploads : List Upload
  recvMs : Int
  ptsUs : Int
  deriving DecidableEq, Repr

/-- The calls of `upload_plane` for a frame of this size. -/
def planeUploads (vw vh : Int) (nv12 : Bool) (plane0 plane1 plane2 : Plane) : List Upload :=
  ⟨0, plane0.data, plane0.stride, vw, vh, false⟩ ::
    if nv12 then [⟨1, plane1.data, plane1.stride.tdiv 2, vw.tdiv 2, vh.tdiv 2, true⟩]
    else [⟨1, plane1.data, plane1.stride, vw.tdiv 2, vh.tdiv 2, false⟩,
      ⟨2, plane2.data, plane2.stride, vw.tdiv 2, vh.tdiv 2, false⟩]

/-- Where the core thread is in `render_on_frame`. -/
inductive CorePc where
  | out
  /-- Behind the lock section. -/
  | stored (sizeChanged : Bool)
  /-- Behind `atomic_fetch_add`. -/
  | counted (sizeChanged : Bool)
  /-- The exchange has returned 0. -/
  | scheduling
  deriving DecidableEq, Repr

/-- Where the UI thread is in `trigger_render`. -/
inductive UiPc where
  | out
  /-- The flag is cleared, nothing queued yet. -/
  | cleared
  deriving DecidableEq, Repr

structure View where
  -- under the lock
  havePending : Bool
  vw : Int
  vh : Int
  pixfmt : RcPixfmt
  fullRange : Bool
  bt709 : Bool
  plane0 : Plane
  plane1 : Plane
  plane2 : Plane
  pendRecvMs : Int
  pendPtsUs : Int
  -- atomics
  renderScheduled : Bool
  frameCount : Nat
  -- the threads, the idle callbacks, the render that GTK has to do
  core : CorePc
  ui : UiPc
  triggers : Nat
  resizes : Nat
  renderQueued : Bool
  -- of the UI thread
  latSumMs : Int
  latN : Nat
  lagSumMs : Int
  lagBaseUs : Int
  -- what was stored and what was uploaded, oldest first
  frames : List RcFrame
  /-- Each upload with the place in `frames` of the newest frame at that time. -/
  shown : List (Nat × Shown)
  deriving DecidableEq

def View.start : View where
  havePending := false
  vw := 0
  vh := 0
  pixfmt := .i420
  fullRange := false
  bt709 := false
  plane0 := ⟨[], 0⟩
  plane1 := ⟨[], 0⟩
  plane2 := ⟨[], 0⟩
  pendRecvMs := 0
  pendPtsUs := 0
  renderScheduled := false
  frameCount := 0
  core := .out
  ui := .out
  triggers := 0
  resizes := 0
  renderQueued := false
  latSumMs := 0
  latN := 0
  lagSumMs := 0
  lagBaseUs := 2 ^ 63 - 1
  frames := []
  shown := []

/-- The lock section of `render_on_frame`. -/
def View.store (s : View) (f : RcFrame) : View :=
  { s with
    core := .stored (s.vw ≠ f.width || s.vh ≠ f.height)
    vw := f.width
    vh := f.height
    pixfmt := f.format
    fullRange := f.fullRange
    bt709 := f.bt709
    plane0 := f.data0
    plane1 := f.data1
    -- an NV12 frame has no third plane, and the old one stays
    plane2 := if f.format = .nv12 then s.plane2 else f.data2
    havePending := true
    pendRecvMs := f.recvMs
    pendPtsUs := f.ptsUs
    frames := s.frames ++ [f] }

/-- The sample of the latency for a frame that was uploaded. -/
def View.sample (s : View) (nowUs recvMs ptsUs : Int) : View :=
  let pipe := nowUs.tdiv 1000 - recvMs
  if 0 ≤ pipe ∧ pipe < 10000 then
    let s := { s with latSumMs := s.latSumMs + pipe, latN := s.latN + 1 }
    if 0 < ptsUs then
      let rel := nowUs - ptsUs
      let base := if rel < s.lagBaseUs then rel else s.lagBaseUs
      { s with lagBaseUs := base, lagSumMs := s.lagSumMs + (rel - base).tdiv 1000 }
    else s
  else s

/-- What `on_render` finds under the lock. -/
def View.found (s : View) : Shown :=
  let nv12 : Bool := s.pixfmt = .nv12
  ⟨s.vw, s.vh, nv12, s.fullRange, s.bt709,
    planeUploads s.vw s.vh nv12 s.plane0 s.plane1 s.plane2, s.pendRecvMs, s.pendPtsUs⟩

/-- `on_render`. -/
def View.render (s : View) (nowUs : Int) : View :=
  let s := { s with renderQueued := false }
  if s.havePending ∧ 0 < s.vw ∧ 0 < s.vh then
    View.sample
      { s with havePending := false, shown := s.shown ++ [(s.frames.length - 1, s.found)] }
      nowUs s.pendRecvMs s.pendPtsUs
  else s

inductive RenderAct where
  /-- `render_on_frame` is called, and goes through its lock section. -/
  | frame (f : RcFrame)
  | count
  /-- `g_idle_add(resize_to_video)`. -/
  | addResize
  /-- `atomic_exchange`. -/
  | exchange
  /-- `g_idle_add(trigger_render)`. -/
  | addTrigger
  /-- The idle callback runs and clears the flag. -/
  | clear
  /-- It queues a render. -/
  | queue
  /-- GTK renders. -/
  | render (nowUs : Int)
  /-- The idle callback `resize_to_video` runs. -/
  | resize
  /-- GTK has a reason of its own to render, as after a resize. -/
  | expose
  deriving DecidableEq

def renderStep (s : View) : RenderAct → Option View
  | .frame f =>
    match s.core, f.format with
    | .out, .other _ => some s
    | .out, _ => some (s.store f)
    | _, _ => none
  | .count =>
    match s.core with
    | .stored changed => some { s with core := .counted changed, frameCount := s.frameCount + 1 }
    | _ => none
  | .addResize =>
    match s.core with
    | .counted true => some { s with core := .counted false, resizes := s.resizes + 1 }
    | _ => none
  | .exchange =>
    match s.core with
    | .counted false =>
      if s.renderScheduled then some { s with core := .out }
      else some { s with core := .scheduling, renderScheduled := true }
    | _ => none
  | .addTrigger =>
    match s.core with
    | .scheduling => some { s with core := .out, triggers := s.triggers + 1 }
    | _ => none
  | .clear =>
    if s.ui = .out ∧ 0 < s.triggers then
      some { s with ui := .cleared, triggers := s.triggers - 1, renderScheduled := false }
    else none
  | .queue => if s.ui = .cleared then some { s with ui := .out, renderQueued := true } else none
  | .render nowUs => if s.ui = .out ∧ s.renderQueued then some (s.render nowUs) else none
  | .resize => if s.ui = .out ∧ 0 < s.resizes then some { s with resizes := s.resizes - 1 } else none
  | .expose => if s.ui = .out then some { s with renderQueued := true } else none

def renderLts : Lts View RenderAct := { init := .start, step := renderStep }

/-- `f` as it is uploaded from buffers that hold it. -/
def RcFrame.shown (f : RcFrame) : Shown :=
  let nv12 : Bool := f.format = .nv12
  ⟨f.width, f.height, nv12, f.fullRange, f.bt709,
    planeUploads f.width f.height nv12 f.data0 f.data1 f.data2, f.recvMs, f.ptsUs⟩

/-- A step that only the UI thread takes. -/
def RenderAct.OfUi : RenderAct → Prop
  | .clear | .queue | .render _ | .resize | .expose => True
  | _ => False

/-- The ways a step can go. -/
inductive RenderMove (s : View) : RenderAct → View → Prop where
  | unknown (f : RcFrame) (hcore : s.core = .out) : RenderMove s (.frame f) s
  | frame (f : RcFrame) (hcore : s.core = .out) : RenderMove s (.frame f) (s.store f)
  | count (changed : Bool) (hcore : s.core = .stored changed) :
      RenderMove s .count { s with core := .counted changed, frameCount := s.frameCount + 1 }
  | addResize (hcore : s.core = .counted true) :
      RenderMove s .addResize { s with core := .counted false, resizes := s.resizes + 1 }
  | coalesced (hcore : s.core = .counted false) (hset : s.renderScheduled = true) :
      RenderMove s .exchange { s with core := .out }
  | exchange (hcore : s.core = .counted false) (hset : s.renderScheduled = false) :
      RenderMove s .exchange { s with core := .scheduling, renderScheduled := true }
  | addTrigger (hcore : s.core = .scheduling) :
      RenderMove s .addTrigger { s with core := .out, triggers := s.triggers + 1 }
  | clear (hui : s.ui = .out) (hsome : 0 < s.triggers) :
      RenderMove s .clear
        { s with ui := .cleared, triggers := s.triggers - 1, renderScheduled := false }
  | queue (hui : s.ui = .cleared) :
      RenderMove s .queue { s with ui := .out, renderQueued := true }
  | render (nowUs : Int) : RenderMove s (.render nowUs) (s.render nowUs)
  | resize : RenderMove s .resize { s with resizes := s.resizes - 1 }
  | expose : RenderMove s .expose { s with renderQueued := true }

theorem renderStep_move {s s' : View} {a : RenderAct} (h : renderStep s a = some s') :
    RenderMove s a s' := by
  cases a with
  | frame f =>
    simp only [renderStep] at h
    split at h
    · rename_i hcore _
      cases h
      exact .unknown f hcore
    · rename_i hcore _
      cases h
      exact .frame f hcore
    · cases h
  | count =>
    simp only [renderStep] at h
    split at h
    · rename_i hcore
      cases h
      exact .count _ hcore
    · cases h
  | addResize =>
    simp only [renderStep] at h
    split at h
    · rename_i hcore
      cases h
      exact .addResize hcore
    · cases h
  | exchange =>
    simp only [renderStep] at h
    split at h
    · rename_i hcore
      split at h
      · rename_i hset
        cases h
        exact .coalesced hcore hset
      · rename_i hset
        cases h
        exact .exchange hcore (by simpa using hset)
    · cases h
  | addTrigger =>
    simp only [renderStep] at h
    split at h
    · rename_i hcore
      cases h
      exact .addTrigger hcore
    · cases h
  | clear =>
    obtain ⟨hwhen, h⟩ := Option.ite_none_right_eq_some.mp h
    cases h
    exact .clear hwhen.1 hwhen.2
  | queue =>
    obtain ⟨hwhen, h⟩ := Option.ite_none_right_eq_some.mp h
    cases h
    exact .queue hwhen
  | render now =>
    obtain ⟨-, h⟩ := Option.ite_none_right_eq_some.mp h
    cases h
    exact .render now
  | resize =>
    obtain ⟨-, h⟩ := Option.ite_none_right_eq_some.mp h
    cases h
    exact .resize
  | expose =>
    obtain ⟨-, h⟩ := Option.ite_none_right_eq_some.mp h
    cases h
    exact .expose

/-! ## What each function leaves -/

theorem planeUploads_third (vw vh : Int) {nv12 : Bool} {p0 p1 p2 p2' : Plane}
    (h : nv12 = false → p2 = p2') :
    planeUploads vw vh nv12 p0 p1 p2 = planeUploads vw vh nv12 p0 p1 p2' := by
  cases nv12 with
  | false => rw [h rfl]
  | true => rfl

@[simp] theorem found_store (s : View) (f : RcFrame) : (s.store f).found = f.shown := by
  have hthird : (decide (f.format = .nv12) = false) →
      (if f.format = .nv12 then s.plane2 else f.data2) = f.data2 := by
    intro h
    rw [if_neg (by simpa using h)]
  unfold View.found View.store RcFrame.shown
  dsimp only
  rw [planeUploads_third _ _ hthird]

/-- A sample touches the statistics only. -/
theorem sample_eq (s : View) (now recv pts : Int) : ∃ sum n lag base,
    s.sample now recv pts =
      { s with latSumMs := sum, latN := n, lagSumMs := lag, lagBaseUs := base } := by
  unfold View.sample
  dsimp only
  by_cases hpipe : 0 ≤ now.tdiv 1000 - recv ∧ now.tdiv 1000 - recv < 10000
  · rw [if_pos hpipe]
    by_cases hpts : 0 < pts
    · rw [if_pos hpts]
      exact ⟨_, _, _, _, rfl⟩
    · rw [if_neg hpts]
      exact ⟨_, _, _, _, rfl⟩
  · rw [if_neg hpipe]
    exact ⟨s.latSumMs, s.latN, s.lagSumMs, s.lagBaseUs, rfl⟩

theorem render_idle {s : View} (h : s.havePending = false) (now : Int) :
    s.render now = { s with renderQueued := false } := by
  unfold View.render
  rw [if_neg (by simp [h])]

theorem render_pending {s : View} (h : s.havePending = true) (hw : 0 < s.vw) (hh : 0 < s.vh)
    (now : Int) : ∃ sum n lag base,
      s.render now =
        { s with
          renderQueued := false
          havePending := false
          shown := s.shown ++ [(s.frames.length - 1, s.found)]
          latSumMs := sum, latN := n, lagSumMs := lag, lagBaseUs := base } := by
  unfold View.render
  rw [if_pos ⟨h, hw, hh⟩]
  exact sample_eq _ now _ _

/-! ## The wake-up and the buffers -/

/-- The flag is set exactly while one wake-up is on its way. -/
def View.Flagged (s : View) : Prop :=
  s.triggers + (if s.core = .scheduling then 1 else 0) = if s.renderScheduled then 1 else 0

/-- Someone is going to render. -/
def View.Due (s : View) : Prop := 0 < s.triggers ∨ s.ui = .cleared ∨ s.renderQueued = true

theorem View.flagged_iff {s : View} (h : s.core ≠ .scheduling) :
    s.Flagged ↔ s.triggers = if s.renderScheduled then 1 else 0 := by
  unfold View.Flagged
  rw [if_neg h, Nat.add_zero]

structure View.Live (s : View) : Prop where
  flagged : s.Flagged
  due : s.havePending = true → s.core = .out → s.Due

/-- The buffers hold `f`, the newest frame. -/
structure View.Holds (s : View) (f : RcFrame) : Prop where
  newest : s.frames.getLast? = some f
  found : s.found = f.shown

/-- The newest frame is the last one that was uploaded. -/
def View.UpToDate (s : View) : Prop :=
  s.shown.getLast? = s.frames.getLast?.map fun f => (s.frames.length - 1, f.shown)

/-- Every upload is of a frame stored before, a later one each time. -/
structure View.Ordered (s : View) : Prop where
  later : s.shown.Pairwise fun a b => a.1 < b.1
  own : ∀ e ∈ s.shown, ∃ f, s.frames[e.1]? = some f ∧ e.2 = f.shown
  fresh : s.havePending = true → ∀ e ∈ s.shown, e.1 + 1 < s.frames.length
  held : s.havePending = true → ∃ f, s.Holds f
  done : s.havePending = false → s.UpToDate

theorem View.Live.start : View.start.Live where
  flagged := rfl
  due h := by cases h

theorem View.Ordered.start : View.start.Ordered where
  later := .nil
  own e he := by cases he
  fresh h := by cases h
  held h := by cases h
  done _ := rfl

theorem View.Holds.sized {s : View} {f : RcFrame} (h : s.Holds f) : 0 < s.vw ∧ 0 < s.vh := by
  have hw : s.vw = f.width := congrArg Shown.vw h.found
  have hh : s.vh = f.height := congrArg Shown.vh h.found
  rw [hw, hh]
  exact f.sized

theorem View.Live.render {s : View} (h : s.Live) (hs : s.Ordered) (now : Int) : (s.render now).Live := by
  cases hp : s.havePending with
  | false =>
    rw [render_idle hp]
    refine ⟨h.flagged, fun hp' => ?_⟩
    rw [hp] at hp'
    cases hp'
  | true =>
    obtain ⟨f, hf⟩ := hs.held hp
    obtain ⟨sum, n, lag, base, hr⟩ := render_pending hp hf.sized.1 hf.sized.2 now
    rw [hr]
    exact ⟨h.flagged, fun hp' => by cases hp'⟩

/-- Alike in the pending flag, the buffers and the two lists. -/
structure View.Alike (t s : View) : Prop where
  pending : t.havePending = s.havePending
  frames : t.frames = s.frames
  shown : t.shown = s.shown
  found : t.found = s.found

theorem View.Ordered.congr {s t : View} (hs : s.Ordered) (h : t.Alike s) : t.Ordered := by
  refine ⟨?_, ?_, ?_, ?_, ?_⟩ <;> simp only [View.UpToDate, h.pending, h.frames, h.shown]
  · exact hs.later
  · exact hs.own
  · exact hs.fresh
  · intro hp
    obtain ⟨f, hf⟩ := hs.held hp
    exact ⟨f, by rw [h.frames, hf.newest], h.found.trans hf.found⟩
  · exact hs.done

theorem View.Ordered.store {s : View} (hs : s.Ordered) (f : RcFrame) : (s.store f).Ordered := by
  have hframes : (s.store f).frames = s.frames ++ [f] := rfl
  refine ⟨hs.later, fun e he => ?_, fun _ e he => ?_, fun _ => ⟨f, ?_, found_store s f⟩, ?_⟩
  · obtain ⟨g, hg, hown⟩ := hs.own e he
    obtain ⟨hlt, -⟩ := List.getElem?_eq_some_iff.mp hg
    refine ⟨g, ?_, hown⟩
    rw [hframes, List.getElem?_append_left hlt, hg]
  · obtain ⟨g, hg, -⟩ := hs.own e he
    obtain ⟨hlt, -⟩ := List.getElem?_eq_some_iff.mp hg
    rw [hframes, List.length_append, List.length_singleton]
    omega
  · rw [hframes, List.getLast?_concat]
  · intro h
    cases h

theorem View.Ordered.render {s : View} (hs : s.Ordered) (now : Int) : (s.render now).Ordered := by
  cases hp : s.havePending with
  | false =>
    rw [render_idle hp]
    exact hs.congr ⟨rfl, rfl, rfl, rfl⟩
  | true =>
    obtain ⟨f, hf⟩ := hs.held hp
    obtain ⟨sum, n, lag, base, hr⟩ := render_pending hp hf.sized.1 hf.sized.2 now
    have hne : s.frames ≠ [] := by
      intro hnil
      have hnewest := hf.newest
      rw [hnil] at hnewest
      cases hnewest
    have hnewest : s.frames[s.frames.length - 1]? = some f := by
      rw [← List.getLast?_eq_getElem?, hf.newest]
    rw [hr]
    refine ⟨?_, ?_, fun h => (by cases h), fun h => (by cases h), fun _ => ?_⟩
    · refine List.pairwise_append.mpr ⟨hs.later, List.pairwise_singleton _ _, ?_⟩
      intro a ha b hb
      obtain rfl := List.mem_singleton.mp hb
      have := hs.fresh hp a ha
      dsimp only
      omega
    · intro e he
      rcases List.mem_append.mp he with he | he
      · exact hs.own e he
      · obtain rfl := List.mem_singleton.mp he
        exact ⟨f, hnewest, hf.found⟩
    · show (s.shown ++ [(s.frames.length - 1, s.found)]).getLast? = _
      rw [List.getLast?_concat, hf.newest, hf.found]
      rfl

/-- Inside `render_on_frame` nothing is due yet, and the flag is as it was. -/
theorem View.Live.inside {s t : View} (hl : s.Live) (hs : s.core ≠ .scheduling)
    (ht : t.core ≠ .scheduling) (hout : t.core ≠ .out) (htriggers : t.triggers = s.triggers)
    (hset : t.renderScheduled = s.renderScheduled) : t.Live := by
  refine ⟨?_, fun _ h => absurd h hout⟩
  rw [View.flagged_iff ht, htriggers, hset]
  exact (View.flagged_iff hs).mp hl.flagged

theorem live_step {s s' : View} {a : RenderAct} (hl : s.Live) (hs : s.Ordered)
    (h : RenderMove s a s') : s'.Live := by
  cases h with
  | unknown f _ => exact hl
  | frame f hcore =>
    exact hl.inside (by simp [hcore]) (by simp [View.store]) (by simp [View.store]) rfl rfl
  | count changed hcore => exact hl.inside (by simp [hcore]) (by simp) (by simp) rfl rfl
  | addResize hcore => exact hl.inside (by simp [hcore]) (by simp) (by simp) rfl rfl
  | coalesced hcore hset =>
    -- the flag stands for a wake-up that is still to come, and it will find this frame
    have hone := (View.flagged_iff (by simp [hcore])).mp hl.flagged
    rw [if_pos hset] at hone
    refine ⟨(View.flagged_iff (by simp)).mpr ?_, fun _ _ => .inl ?_⟩
    · dsimp only
      rw [if_pos hset, hone]
    · dsimp only
      omega
  | exchange hcore hset =>
    have hnone := (View.flagged_iff (by simp [hcore])).mp hl.flagged
    rw [hset] at hnone
    refine ⟨?_, fun _ hout => by cases hout⟩
    unfold View.Flagged
    dsimp only
    rw [hnone]
    rfl
  | addTrigger hcore =>
    have hflag := hl.flagged
    unfold View.Flagged at hflag
    rw [if_pos hcore] at hflag
    exact ⟨(View.flagged_iff (by simp)).mpr hflag, fun _ _ => .inl (Nat.succ_pos _)⟩
  | clear hui hsome =>
    refine ⟨?_, fun _ _ => .inr (.inl rfl)⟩
    have hflag := hl.flagged
    unfold View.Flagged at hflag ⊢
    dsimp only
    -- one wake-up was on its way, so the core thread is not about to add another
    rw [if_neg Bool.false_ne_true]
    by_cases hcore : s.core = .scheduling
    · rw [if_pos hcore] at hflag ⊢
      split at hflag <;> omega
    · rw [if_neg hcore] at hflag ⊢
      split at hflag <;> omega
  | queue _ => exact ⟨hl.flagged, fun _ _ => .inr (.inr rfl)⟩
  | render now => exact hl.render hs now
  | resize => exact ⟨hl.flagged, hl.due⟩
  | expose => exact ⟨hl.flagged, fun _ _ => .inr (.inr rfl)⟩

theorem ordered_step {s s' : View} {a : RenderAct} (hs : s.Ordered) (h : RenderMove s a s') :
    s'.Ordered := by
  cases h with
  | unknown f _ => exact hs
  | frame f _ => exact hs.store f
  | render now => exact hs.render now
  | count | addResize | coalesced | exchange | addTrigger | clear | queue | resize | expose =>
    exact hs.congr ⟨rfl, rfl, rfl, rfl⟩

theorem live_ordered {s : View} (h : renderLts.Reachable s) : s.Live ∧ s.Ordered := by
  refine h.invariant (I := fun s => s.Live ∧ s.Ordered) ⟨View.Live.start, View.Ordered.start⟩ ?_
  intro s a s' hs hstep
  have hmove := renderStep_move hstep
  exact ⟨live_step hs.1 hs.2 hmove, ordered_step hs.2 hmove⟩

/-! ## The newest frame -/

/-- Where something is due, the UI thread alone comes to the render. -/
theorem due_queued {s : View} (h : s.Due) : ∃ as t, renderLts.run s as = some t ∧
    (∀ a ∈ as, a.OfUi) ∧ t.ui = .out ∧ t.renderQueued = true ∧ t.Alike s := by
  cases hui : s.ui with
  | cleared =>
    refine ⟨[.queue], { s with ui := .out, renderQueued := true }, ?_, by simp [RenderAct.OfUi],
      rfl, rfl, ⟨rfl, rfl, rfl, rfl⟩⟩
    simp [Lts.run, renderLts, renderStep, hui]
  | out =>
    rcases h with hsome | hcleared | hqueued
    · let u : View := { s with ui := .cleared, triggers := s.triggers - 1, renderScheduled := false }
      refine ⟨[.clear, .queue], { u with ui := .out, renderQueued := true }, ?_,
        by simp [RenderAct.OfUi], rfl, rfl, ⟨rfl, rfl, rfl, rfl⟩⟩
      simp [Lts.run, renderLts, renderStep, hui, hsome, u]
    · rw [hui] at hcleared
      cases hcleared
    · exact ⟨[], s, rfl, by simp, hui, hqueued, ⟨rfl, rfl, rfl, rfl⟩⟩

theorem render_upToDate {s : View} (hs : s.Ordered) (now : Int) :
    (s.render now).UpToDate ∧ (s.render now).frames = s.frames ∧
      (s.render now).shown = s.shown ++
        if s.havePending then
          (s.frames.getLast?.map fun f => (s.frames.length - 1, f.shown)).toList
        else [] := by
  have hrender := hs.render now
  cases hp : s.havePending with
  | false =>
    rw [render_idle hp] at hrender ⊢
    exact ⟨hrender.done hp, rfl, by simp⟩
  | true =>
    obtain ⟨f, hf⟩ := hs.held hp
    obtain ⟨sum, n, lag, base, hr⟩ := render_pending hp hf.sized.1 hf.sized.2 now
    rw [hr] at hrender ⊢
    refine ⟨hrender.done rfl, rfl, ?_⟩
    rw [if_pos rfl, hf.newest, hf.found]
    rfl

/-- From where the core thread is outside, the UI thread alone shows the newest frame. -/
theorem newest_reached {s : View} (hl : s.Live) (hs : s.Ordered) (hcore : s.core = .out) :
    ∃ bs t, renderLts.run s bs = some t ∧ (∀ b ∈ bs, b.OfUi) ∧ t.frames = s.frames ∧
      t.UpToDate := by
  cases hp : s.havePending with
  | false => exact ⟨[], s, rfl, by simp, rfl, hs.done hp⟩
  | true =>
    obtain ⟨bs, t, hrun, hbs, hui, hqueued, halike⟩ := due_queued (hl.due hp hcore)
    obtain ⟨hdate, hframes, -⟩ := render_upToDate (hs.congr halike) 0
    refine ⟨bs ++ [.render 0], t.render 0, ?_, ?_, hframes.trans halike.frames, hdate⟩
    · refine Lts.run_append.mpr ⟨t, hrun, ?_⟩
      simp [Lts.run, renderLts, renderStep, hui, hqueued]
    · intro b hb
      rcases List.mem_append.mp hb with hb | hb
      · exact hbs b hb
      · obtain rfl := List.mem_singleton.mp hb
        trivial

/-- No wake-up is lost, in any interleaving. While a frame is pending and the core thread is
outside `render_on_frame` a render is on its way, and the UI thread alone shows the newest
frame from there; where nothing is on its way the newest frame is the last one uploaded.
The uploads are of stored frames, each as it was stored and a later one each time, and a
render uploads the newest. -/
theorem newest_frame_shown {as : List RenderAct} {s : View}
    (h : renderLts.run renderLts.init as = some s) :
    (s.havePending = true → s.core = .out →
      0 < s.triggers ∨ s.ui = .cleared ∨ s.renderQueued = true) ∧
    (s.core = .out → ∃ bs t, renderLts.run s bs = some t ∧ (∀ b ∈ bs, b.OfUi) ∧
      t.frames = s.frames ∧ t.UpToDate) ∧
    (s.core = .out → s.triggers = 0 → s.ui = .out → s.renderQueued = false → s.UpToDate) ∧
    (s.shown.Pairwise fun a b => a.1 < b.1) ∧
    (∀ e ∈ s.shown, ∃ f, s.frames[e.1]? = some f ∧ e.2 = f.shown) ∧
    ∀ now s', renderStep s (.render now) = some s' →
      s'.UpToDate ∧ s'.frames = s.frames ∧ s'.shown = s.shown ++
        if s.havePending then
          (s.frames.getLast?.map fun f => (s.frames.length - 1, f.shown)).toList
        else [] := by
  obtain ⟨hl, hs⟩ := live_ordered ⟨as, h⟩
  refine ⟨hl.due, newest_reached hl hs, ?_, hs.later, hs.own, ?_⟩
  · intro hcore htriggers hui hqueued
    refine hs.done ?_
    by_contra hp
    -- a pending frame would have a render on its way
    rcases hl.due (by simpa using hp) hcore with hsome | hcleared | hqueued'
    · omega
    · rw [hui] at hcleared
      cases hcleared
    · rw [hqueued] at hqueued'
      cases hqueued'
  · intro now s' hstep
    obtain ⟨-, hstep⟩ := Option.ite_none_right_eq_some.mp hstep
    cases hstep
    exact render_upToDate hs now

/-- A frame of 2 × 2 pixels. -/
def tinyFrame (format : RcPixfmt) (ptsUs recvMs : Int) : RcFrame where
  width := 2
  height := 2
  format := format
  data0 := ⟨[1, 2, 3, 4], 2⟩
  data1 := ⟨[5, 6], 2⟩
  data2 := ⟨[7], 1⟩
  ptsUs := ptsUs
  recvMs := recvMs
  fullRange := false
  bt709 := true
  sized := ⟨by decide, by decide⟩

/-- The flag is cleared for the first frame when the second is stored already. -/
def raced : List RenderAct :=
  [.frame (tinyFrame .i420 10 1), .count, .addResize, .exchange, .addTrigger,
    .frame (tinyFrame .nv12 20 2), .clear, .count, .queue, .render 5000, .exchange, .addTrigger,
    .clear, .queue, .render 6000]

theorem newest_frame_shown_raced : ∃ s, renderLts.run renderLts.init raced = some s ∧
    (s.shown.Pairwise fun a b => a.1 < b.1) ∧
    ∀ e ∈ s.shown, ∃ f, s.frames[e.1]? = some f ∧ e.2 = f.shown := by
  have hrun : renderLts.run renderLts.init raced = some _ := rfl
  exact ⟨_, hrun, (newest_frame_shown hrun).2.2.2.1, (newest_frame_shown hrun).2.2.2.2.1⟩

example : (renderLts.run renderLts.init raced).map (fun s => s.shown) =
    some [(1, (tinyFrame .nv12 20 2).shown)] := rfl

end RigControl.Gtk
