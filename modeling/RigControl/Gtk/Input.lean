import RigControl.Core.Control

/-!
# Pointer events of a session window

`input.c` of the GTK front end: `on_pressed`, `on_released`, `on_motion`, `on_scroll`,
and `render_widget_to_device` of `render.c`, which maps a position in the widget to
one of the device unless it lies outside the letterboxed video. A `double` is any type
with the operations the code uses, so nothing here depends on how they round.

A history is a list of events with the newest first.
-/

namespace RigControl.Gtk

open RigControl.Core

/-- The operations on `double`, and the conversion to `float`. -/
class DoubleOps (R : Type) extends IntCast R, Add R, Sub R, Mul R, Div R, Neg R where
  lt : R → R → Bool
  toFloat : R → FloatBits

open DoubleOps (lt toFloat)

/-- The part of a `Session` that the handlers use: whether there is a client and its
control channel is connected, the size of the video and of the GL area, the input
state, and the calls that went out on the control channel. -/
structure Session where
  client : Bool
  control : Bool
  vw : Int
  vh : Int
  ww : Int
  wh : Int
  mouseButtons : UInt32
  devX : FloatBits
  devY : FloatBits
  calls : List SendCall

/-- A session whose `rc_client_start` is under way. -/
def Session.start : Session := ⟨true, false, 0, 0, 0, 0, 0, 0, 0, []⟩

/-- A mouse button of GDK: 1 is the primary one, 2 the middle, 3 the secondary. -/
def gdkButtonToRc (button : UInt32) : UInt32 :=
  if button = 1 then rcButtonLeft
  else if button = 3 then rcButtonRight
  else if button = 2 then rcButtonMiddle
  else 0

namespace Session

variable {R : Type} [DoubleOps R]

/-- `None` is a position outside the video. -/
def renderWidgetToDevice (s : Session) (wx wy : R) : Option (FloatBits × FloatBits) :=
  if s.vw ≤ 0 ∨ s.vh ≤ 0 then none
  else if s.ww ≤ 0 ∨ s.wh ≤ 0 then none
  else
    let winA : R := (s.ww : R) / (s.wh : R)
    let vidA : R := (s.vw : R) / (s.vh : R)
    let (vpw, vph) : R × R :=
      if lt vidA winA then ((s.wh : R) * vidA, (s.wh : R)) else ((s.ww : R), (s.ww : R) / vidA)
    let vpx := ((s.ww : R) - vpw) / ((2 : Int) : R)
    let vpy := ((s.wh : R) - vph) / ((2 : Int) : R)
    if lt wx vpx || lt (vpx + vpw) wx || lt wy vpy || lt (vpy + vph) wy then none
    else
      some (toFloat ((wx - vpx) / vpw * (s.vw : R)), toFloat ((wy - vpy) / vph * (s.vh : R)))

/-- `rc_client_send_*`: without a control channel nothing goes out. -/
def send (s : Session) (call : SendCall) : Session :=
  if s.control then { s with calls := s.calls ++ [call] } else s

def onPressed (s : Session) (button : UInt32) (x y : R) : Session :=
  if !s.client then s
  else
    match s.renderWidgetToDevice x y with
    | none => s
    | some (dx, dy) =>
      let b := gdkButtonToRc button
      let s := { s with mouseButtons := s.mouseButtons ||| b, devX := dx, devY := dy }
      s.send (.mouseButton 1 b s.mouseButtons dx dy)

def onReleased (s : Session) (button : UInt32) (x y : R) : Session :=
  if !s.client then s
  else
    let (dx, dy) := (s.renderWidgetToDevice x y).getD (s.devX, s.devY)
    let b := gdkButtonToRc button
    let s := { s with mouseButtons := s.mouseButtons &&& ~~~b }
    s.send (.mouseButton 0 b s.mouseButtons dx dy)

def onMotion (s : Session) (x y : R) : Session :=
  if !s.client then s
  else
    match s.renderWidgetToDevice x y with
    | none => s
    | some (dx, dy) =>
      -- the position is kept for a scroll; a motion is only sent while dragging
      let s := { s with devX := dx, devY := dy }
      if s.mouseButtons ≠ 0 then s.send (.mouseMotion s.mouseButtons dx dy) else s

def onScroll (s : Session) (dx dy : R) : Session :=
  if !s.client then s
  else s.send (.scroll s.devX s.devY (toFloat (-dx)) (toFloat (-dy)))

end Session

/-- What happens to a session: events of GTK, a new size of the GL area, and the steps
of its client. -/
inductive GtkEvent (R : Type) where
  | pressed (button : UInt32) (x y : R)
  | released (button : UInt32) (x y : R)
  | motion (x y : R)
  | scroll (dx dy : R)
  | allocate (width height : Int)
  /-- `rc_client_start` has connected the control channel. -/
  | connected
  /-- `render_on_frame`. -/
  | frame (width height : Int)
  | teardown

variable {R : Type} [DoubleOps R]

def Session.handle (s : Session) : GtkEvent R → Session
  | .pressed button x y => s.onPressed button x y
  | .released button x y => s.onReleased button x y
  | .motion x y => s.onMotion x y
  | .scroll dx dy => s.onScroll dx dy
  | .allocate width height => { s with ww := width, wh := height }
  | .connected => if s.client then { s with control := true } else s
  -- the thread that decodes starts behind the connections
  | .frame width height => if s.control then { s with vw := width, vh := height } else s
  | .teardown => { s with client := false, control := false }

/-- The session after a history. -/
def play (h : List (GtkEvent R)) : Session := h.foldr (fun e s => s.handle e) .start

/-! ## What GTK delivers -/

/-- The last event of a button is a press. -/
def held (button : UInt32) : List (GtkEvent R) → Bool
  | [] => false
  | .pressed b _ _ :: earlier => if b = button then true else held button earlier
  | .released b _ _ :: earlier => if b = button then false else held button earlier
  | _ :: earlier => held button earlier

/-- Presses and releases of each button alternate, and a press comes first. -/
def Alternating : List (GtkEvent R) → Prop
  | [] => True
  | .pressed b _ _ :: earlier => held b earlier = false ∧ Alternating earlier
  | .released b _ _ :: earlier => held b earlier = true ∧ Alternating earlier
  | _ :: earlier => Alternating earlier

/-- The last press of the primary button was in the video. -/
def pressedInVideo : List (GtkEvent R) → Bool
  | [] => false
  | .pressed b x y :: earlier =>
    if b = 1 then ((play earlier).renderWidgetToDevice x y).isSome else pressedInVideo earlier
  | _ :: earlier => pressedInVideo earlier

/-- Every release of the primary button that can be sent belongs to a press in the
video. -/
def ReleasesMatched : List (GtkEvent R) → Prop
  | [] => True
  | .released b _ _ :: earlier =>
    (b = 1 → (play earlier).client = true → (play earlier).control = true →
      pressedInVideo earlier = true) ∧ ReleasesMatched earlier
  | _ :: earlier => ReleasesMatched earlier

instance decidableAlternating : ∀ h : List (GtkEvent R), Decidable (Alternating h)
  | [] => isTrue trivial
  | e :: earlier => by
    have := decidableAlternating earlier
    cases e <;> simp only [Alternating] <;> infer_instance

instance decidableReleasesMatched : ∀ h : List (GtkEvent R), Decidable (ReleasesMatched h)
  | [] => isTrue trivial
  | e :: earlier => by
    have := decidableReleasesMatched earlier
    cases e <;> simp only [ReleasesMatched] <;> infer_instance

/-! ## The left button -/

/-- The bit of the left button in a mask. -/
def leftDown (buttons : UInt32) : Bool := buttons &&& rcButtonLeft ≠ 0

theorem gdkButtonToRc_eq_left {b : UInt32} : gdkButtonToRc b = rcButtonLeft ↔ b = 1 := by
  simp only [gdkButtonToRc]
  split
  · simp_all
  · split
    · simp_all [rcButtonRight, rcButtonLeft]
    · split <;> simp_all [rcButtonMiddle, rcButtonLeft]

/-- A button other than the primary one leaves the bit of the left one alone. -/
theorem gdkButtonToRc_and_left {b : UInt32} (h : b ≠ 1) :
    gdkButtonToRc b &&& rcButtonLeft = 0 ∧ ~~~gdkButtonToRc b &&& rcButtonLeft = rcButtonLeft := by
  simp only [gdkButtonToRc, h, ↓reduceIte]
  split
  · decide
  · split <;> decide

theorem leftDown_press (m b : UInt32) :
    leftDown (m ||| gdkButtonToRc b) = (decide (b = 1) || leftDown m) := by
  have hor : (m ||| gdkButtonToRc b) &&& rcButtonLeft =
      m &&& rcButtonLeft ||| gdkButtonToRc b &&& rcButtonLeft :=
    UInt32.toBitVec_inj.mp BitVec.and_or_distrib_right
  simp only [leftDown, hor]
  by_cases hb : b = 1
  · subst hb
    have hne : m &&& rcButtonLeft ||| rcButtonLeft ≠ 0 := by
      intro h
      rw [UInt32.or_eq_zero_iff] at h
      exact absurd h.2 (by decide)
    simp [show gdkButtonToRc 1 &&& rcButtonLeft = rcButtonLeft from rfl, hne]
  · simp [hb, (gdkButtonToRc_and_left hb).1]

theorem leftDown_release (m b : UInt32) :
    leftDown (m &&& ~~~gdkButtonToRc b) = (!decide (b = 1) && leftDown m) := by
  simp only [leftDown, UInt32.and_assoc]
  by_cases hb : b = 1
  · subst hb
    simp [show ~~~gdkButtonToRc 1 &&& rcButtonLeft = 0 from by decide]
  · simp [hb, (gdkButtonToRc_and_left hb).2]

/-- Before the first frame every position is outside the video. -/
theorem renderWidgetToDevice_dark {s : Session} (h : s.vw = 0) (x y : R) :
    s.renderWidgetToDevice x y = none := by
  simp [Session.renderWidgetToDevice, h]

end RigControl.Gtk
