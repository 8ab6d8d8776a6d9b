import RigControl.Gtk.Input
import RigControl.Lib.Strokes
import RigControl.Wire.Control

/-!
# From the mouse to the touch screen

The touches that `ControlReceiver` injects for the events of a session window, over
the bytes of the control channel. They should be strokes of a finger: down, moves, up.
The window and the receiver keep to that as long as no release is sent whose press was
outside the video (`touches_strokes`).
-/

namespace RigControl.Wire

open RigControl.Lib RigControl.Core RigControl.Server RigControl.Gtk

/-- The part of a touch in a stroke. -/
def touchMark : TouchAction → Mark
  | .down => .opens
  | .move => .inside
  | .up => .closes

def Injected.touchAction : Injected → Option TouchAction
  | .touch a _ _ => some a
  | _ => none

/-- The touches `injectTouch` makes of messages, if `run` could create `input`. -/
def touches (input : Bool) (msgs : List ControlMsg) : List TouchAction :=
  if input then msgs.filterMap fun m => m.act.bind Injected.touchAction else []

/-- A prefix of a word in `(down move* up)*`. -/
def StrokePrefix (w : List TouchAction) : Prop := ∃ v, w ++ v ∈ strokes touchMark

/-- The touch a call of the window ends in. -/
def touchOf (call : SendCall) : Option TouchAction :=
  (received call).act.bind Injected.touchAction

theorem touches_received (calls : List SendCall) :
    touches true (calls.map received) = calls.filterMap touchOf := by
  simp only [touches, ↓reduceIte, List.filterMap_map]
  rfl

/-! ## One event -/

theorem touchOf_press (button buttons : UInt32) (x y : FloatBits) :
    touchOf (.mouseButton 1 (gdkButtonToRc button) buttons x y) =
      if button = 1 then some .down else none := by
  have hb : gdkButtonToRc button = Protocol.buttonLeft ↔ button = 1 := gdkButtonToRc_eq_left
  simp only [touchOf, received, ControlMsg.act, hb]
  split <;> rfl

theorem touchOf_release (button buttons : UInt32) (x y : FloatBits) :
    touchOf (.mouseButton 0 (gdkButtonToRc button) buttons x y) =
      if button = 1 then some .up else none := by
  have hb : gdkButtonToRc button = Protocol.buttonLeft ↔ button = 1 := gdkButtonToRc_eq_left
  simp only [touchOf, received, ControlMsg.act, hb]
  split <;> rfl

theorem touchOf_motion (buttons : UInt32) (x y : FloatBits) :
    touchOf (.mouseMotion buttons x y) = if leftDown buttons then some .move else none := by
  have hb : (buttons &&& Protocol.buttonLeft ≠ 0) ↔ leftDown buttons = true := by
    rw [leftDown, decide_eq_true_eq]
    rfl
  simp only [touchOf, received, ControlMsg.act, hb]
  split <;> rfl

/-- Where the touches of calls stand: inside a stroke or not, or out of order. -/
def standing (calls : List SendCall) : Option Bool :=
  scan touchMark false (calls.filterMap touchOf)

theorem standing_snoc (calls : List SendCall) (call : SendCall) :
    standing (calls ++ [call]) = (touchOf call).elim (standing calls)
      fun a => (standing calls).bind fun b => Mark.next b (touchMark a) := by
  simp only [standing, List.filterMap_append]
  cases ht : touchOf call with
  | none => simp [ht]
  | some a => rw [show [call].filterMap touchOf = [a] by simp [ht], scan_snoc, Option.elim_some]

variable {R : Type} [DoubleOps R]

/-- What holds after every history: the mask knows a primary button that was pressed
in the video; it is empty before the control channel is connected; and the touches
stand where it says until a release goes out of order. -/
structure Tracks (h : List (GtkEvent R)) : Prop where
  left : (play h).client = true →
    leftDown (play h).mouseButtons = (held 1 h && pressedInVideo h)
  dark : (play h).client = true → (play h).control = false →
    (play h).vw = 0 ∧ (play h).mouseButtons = 0
  gone : (play h).client = false → (play h).control = false
  inStep : ReleasesMatched h → standing (play h).calls = some (leftDown (play h).mouseButtons)
  outOfStep : ¬ReleasesMatched h → standing (play h).calls = none

theorem tracks_start : Tracks ([] : List (GtkEvent R)) where
  left _ := by
    have hleft : leftDown 0 = false := by decide
    exact hleft
  dark _ _ := ⟨rfl, rfl⟩
  gone h := by cases h
  inStep _ := by
    have hleft : leftDown 0 = false := by decide
    exact congrArg some hleft.symm
  outOfStep h := absurd trivial h

variable {h : List (GtkEvent R)}

/-- An event that changes nothing that matters here. -/
theorem Tracks.same (ht : Tracks h) {e : GtkEvent R}
    (hclient : (play (e :: h)).client = (play h).client)
    (hdark : (play (e :: h)).control = false →
      (play h).control = false ∧ (play (e :: h)).vw = (play h).vw)
    (hgone : (play h).client = false → (play h).control = false →
      (play (e :: h)).control = false)
    (hbuttons : (play (e :: h)).mouseButtons = (play h).mouseButtons)
    (hstand : standing (play (e :: h)).calls = standing (play h).calls)
    (hheld : (play h).client = true →
      (held 1 (e :: h) && pressedInVideo (e :: h)) = (held 1 h && pressedInVideo h))
    (hrel : ReleasesMatched (e :: h) ↔ ReleasesMatched h) : Tracks (e :: h) where
  left hc := by
    rw [hclient] at hc
    rw [hheld hc, ← ht.left hc, hbuttons]
  dark hc hd := by
    obtain ⟨hd', hvw⟩ := hdark hd
    rw [hvw, hbuttons]
    exact ht.dark (hclient ▸ hc) hd'
  gone hc := hgone (hclient ▸ hc) (ht.gone (hclient ▸ hc))
  inStep hr := by rw [hstand, hbuttons, ht.inStep (hrel.mp hr)]
  outOfStep hr := by rw [hstand, ht.outOfStep (mt hrel.mpr hr)]

/-- An event that leaves the session as it is. -/
theorem Tracks.idle (ht : Tracks h) {e : GtkEvent R} (hplay : play (e :: h) = play h)
    (hheld : (play h).client = true →
      (held 1 (e :: h) && pressedInVideo (e :: h)) = (held 1 h && pressedInVideo h))
    (hrel : ReleasesMatched (e :: h) ↔ ReleasesMatched h) : Tracks (e :: h) :=
  ht.same (by rw [hplay]) (fun hd => ⟨hplay ▸ hd, by rw [hplay]⟩) (fun _ hd => hplay ▸ hd)
    (by rw [hplay]) (by rw [hplay]) hheld hrel

/-- An event for which a call is sent; `s` is the session just before. -/
theorem Tracks.sent (ht : Tracks h) {e : GtkEvent R} {s : Session} {call : SendCall}
    (hplay : play (e :: h) = s.send call) (hclient : s.client = true) (hcontrol : s.control = true)
    (hcalls : s.calls = (play h).calls)
    (hleft : leftDown s.mouseButtons = (held 1 (e :: h) && pressedInVideo (e :: h)))
    (hin : ReleasesMatched (e :: h) → ReleasesMatched h ∧
      (touchOf call).elim (some (leftDown (play h).mouseButtons))
        (fun a => Mark.next (leftDown (play h).mouseButtons) (touchMark a)) =
        some (leftDown s.mouseButtons))
    (hout : ¬ReleasesMatched (e :: h) → ¬ReleasesMatched h ∨
      ∃ a, touchOf call = some a ∧
        Mark.next (leftDown (play h).mouseButtons) (touchMark a) = none) : Tracks (e :: h) := by
  have hsend : s.send call = { s with calls := s.calls ++ [call] } := by
    simp [Session.send, hcontrol]
  rw [hsend] at hplay
  constructor
  · intro _
    rw [hplay]
    exact hleft
  · intro _ hn
    rw [hplay] at hn
    exact absurd (hcontrol.symm.trans hn) (by decide)
  · intro hn
    rw [hplay] at hn
    exact absurd (hclient.symm.trans hn) (by decide)
  · intro hr
    obtain ⟨hr', hnext⟩ := hin hr
    rw [hplay]
    simp only [standing_snoc, hcalls, ht.inStep hr', Option.bind_some]
    exact hnext
  · intro hr
    rw [hplay]
    simp only [standing_snoc, hcalls]
    rcases hout hr with hr' | ⟨a, ha, hnext⟩
    · rw [ht.outOfStep hr']
      cases touchOf call <;> rfl
    · by_cases hr' : ReleasesMatched h
      · rw [ha, ht.inStep hr']
        exact hnext
      · rw [ht.outOfStep hr']
        cases touchOf call <;> rfl

/-- A position in the video means that the channel is connected. -/
theorem Tracks.connected (ht : Tracks h) (hc : (play h).client = true) {x y : R}
    {p : FloatBits × FloatBits} (hp : (play h).renderWidgetToDevice x y = some p) :
    (play h).control = true := by
  by_contra hd
  rw [Bool.not_eq_true] at hd
  rw [renderWidgetToDevice_dark (ht.dark hc hd).1] at hp
  cases hp

theorem Tracks.pressed (ht : Tracks h) {b : UInt32} {x y : R}
    (ha : Alternating (.pressed b x y :: h)) : Tracks (.pressed b x y :: h) := by
  have hplay : play (.pressed b x y :: h) = (play h).onPressed b x y := rfl
  cases hc : (play h).client with
  | false => exact ht.idle (by simp [hplay, Session.onPressed, hc]) (by simp [hc]) .rfl
  | true =>
    have hleft := ht.left hc
    cases hp : (play h).renderWidgetToDevice x y with
    | none =>
      refine ht.idle (by simp [hplay, Session.onPressed, hc, hp]) (fun _ => ?_) .rfl
      by_cases hb : b = 1
      · subst hb
        simp [held, pressedInVideo, hp, ha.1]
      · simp [held, pressedInVideo, hb]
    | some p =>
      have hl := leftDown_press (play h).mouseButtons b
      refine ht.sent (s := { play h with
          mouseButtons := (play h).mouseButtons ||| gdkButtonToRc b
          devX := p.1
          devY := p.2 }) (by simp [hplay, Session.onPressed, hc, hp]; rfl) hc
        (ht.connected hc hp) rfl ?_ (fun hr => ⟨hr, ?_⟩) .inl
      · by_cases hb : b = 1
        · subst hb
          simp [held, pressedInVideo, hp, hl]
        · simp [held, pressedInVideo, hb, hl, hleft]
      · rw [touchOf_press, hl]
        by_cases hb : b = 1
        · subst hb
          simp [hleft, ha.1, touchMark, Mark.next]
        · simp [hb]

theorem Tracks.released (ht : Tracks h) {b : UInt32} {x y : R}
    (ha : Alternating (.released b x y :: h)) : Tracks (.released b x y :: h) := by
  have hplay : play (.released b x y :: h) = (play h).onReleased b x y := rfl
  cases hc : (play h).client with
  | false =>
    refine ht.idle (by simp [hplay, Session.onReleased, hc]) (by simp [hc]) ?_
    simp [ReleasesMatched, hc]
  | true =>
    have hleft := ht.left hc
    have hl := leftDown_release (play h).mouseButtons b
    cases hd : (play h).control with
    | false =>
      obtain ⟨-, hbuttons⟩ := ht.dark hc hd
      have h0 : leftDown 0 = false := by decide
      rw [hbuttons, h0] at hleft
      refine ht.same ?_ (fun _ => ⟨hd, ?_⟩) (fun hn => absurd (hc.symm.trans hn) (by decide)) ?_ ?_
        (fun _ => ?_) ?_
      · simp [hplay, Session.onReleased, hc, Session.send, hd]
      · simp [hplay, Session.onReleased, hc, Session.send, hd]
      · simp [hplay, Session.onReleased, hc, Session.send, hd, hbuttons]
      · simp [hplay, Session.onReleased, hc, Session.send, hd]
      · rw [← hleft]
        by_cases hb : b = 1
        · simp [held, hb]
        · simp [held, pressedInVideo, hb, hleft]
      · simp [ReleasesMatched, hd]
    | true =>
      refine ht.sent (s := { play h with mouseButtons := (play h).mouseButtons &&& ~~~gdkButtonToRc b })
        (by simp [hplay, Session.onReleased, hc]; rfl) hc hd rfl ?_ (fun hr => ⟨hr.2, ?_⟩)
        (fun hr => ?_)
      · by_cases hb : b = 1
        · exact hl.trans (by simp [held, hb])
        · simp [held, pressedInVideo, hb, hl, hleft]
      · rw [touchOf_release, hl]
        by_cases hb : b = 1
        · have hdown : leftDown (play h).mouseButtons = true := by
            subst hb
            rw [hleft, ha.1, hr.1 rfl hc hd]
            rfl
          simp [hb, hdown, touchMark, Mark.next]
        · simp [hb]
      · by_cases hr' : ReleasesMatched h
        · have hb : b = 1 ∧ pressedInVideo h = false := by
            by_contra hn
            exact hr ⟨fun hb _ _ => by simpa [hb] using hn, hr'⟩
          refine .inr ⟨.up, by simp [touchOf_release, hb.1], ?_⟩
          simp [hleft, hb.2, touchMark, Mark.next]
        · exact .inl hr'

theorem Tracks.motion (ht : Tracks h) {x y : R} : Tracks (.motion x y :: h) := by
  have hplay : play (.motion x y :: h) = (play h).onMotion x y := rfl
  cases hc : (play h).client with
  | false => exact ht.idle (by simp [hplay, Session.onMotion, hc]) (fun _ => rfl) .rfl
  | true =>
    cases hp : (play h).renderWidgetToDevice x y with
    | none => exact ht.idle (by simp [hplay, Session.onMotion, hc, hp]) (fun _ => rfl) .rfl
    | some p =>
      by_cases hm : (play h).mouseButtons = 0
      · have hmove : play (.motion x y :: h) = { play h with devX := p.1, devY := p.2 } := by
          simp [hplay, Session.onMotion, hc, hp, hm]
        exact ht.same (by rw [hmove]) (fun hd => ⟨by rwa [hmove] at hd, by rw [hmove]⟩)
          (fun _ hd => by rwa [hmove]) (by rw [hmove]) (by rw [hmove]) (fun _ => rfl) .rfl
      · refine ht.sent (s := { play h with devX := p.1, devY := p.2 })
          (by simp [hplay, Session.onMotion, hc, hp, hm]; rfl) hc (ht.connected hc hp) rfl
          (ht.left hc) (fun hr => ⟨hr, ?_⟩) .inl
        rw [touchOf_motion]
        cases hdown : leftDown (play h).mouseButtons with
        | false => rfl
        | true => rfl

theorem Tracks.scroll (ht : Tracks h) {dx dy : R} : Tracks (.scroll dx dy :: h) := by
  have hplay : play (.scroll dx dy :: h) = (play h).onScroll dx dy := rfl
  cases hc : (play h).client with
  | false => exact ht.idle (by simp [hplay, Session.onScroll, hc]) (fun _ => rfl) .rfl
  | true =>
    cases hd : (play h).control with
    | false =>
      exact ht.idle (by simp [hplay, Session.onScroll, hc, Session.send, hd]) (fun _ => rfl) .rfl
    | true =>
      exact ht.sent (by simp [hplay, Session.onScroll, hc]; rfl) hc hd rfl (ht.left hc)
        (fun hr => ⟨hr, rfl⟩) .inl

theorem tracks (h : List (GtkEvent R)) (ha : Alternating h) : Tracks h := by
  induction h with
  | nil => exact tracks_start
  | cons e h ih =>
    cases e with
    | pressed b x y => exact (ih ha.2).pressed ha
    | released b x y => exact (ih ha.2).released ha
    | motion x y => exact (ih ha).motion
    | scroll dx dy => exact (ih ha).scroll
    | allocate width height =>
      exact (ih ha).same rfl (fun hd => ⟨hd, rfl⟩) (fun _ hd => hd) rfl rfl (fun _ => rfl) .rfl
    | connected =>
      cases hc : (play h).client with
      | false => exact (ih ha).idle (if_neg (Bool.eq_false_iff.mp hc)) (fun _ => rfl) .rfl
      | true =>
        have hplay : play (.connected :: h) = { play h with control := true } := if_pos hc
        exact (ih ha).same (by rw [hplay]) (fun hd => by rw [hplay] at hd; cases hd)
          (fun hn => absurd (hc.symm.trans hn) (by decide)) (by rw [hplay]) (by rw [hplay])
          (fun _ => rfl) .rfl
    | frame width height =>
      cases hd : (play h).control with
      | false => exact (ih ha).idle (if_neg (Bool.eq_false_iff.mp hd)) (fun _ => rfl) .rfl
      | true =>
        have hplay : play (.frame width height :: h) =
            { play h with vw := width, vh := height } := if_pos hd
        exact (ih ha).same (by rw [hplay])
          (fun hn => by
            rw [hplay] at hn
            exact absurd (show true = false from hd.symm.trans hn) (by decide))
          (fun _ hn => absurd (hd.symm.trans hn) (by decide)) (by rw [hplay]) (by rw [hplay])
          (fun _ => rfl) .rfl
    | teardown =>
      have ht := ih ha
      exact {
        left := fun hc => by cases hc
        dark := fun hc => by cases hc
        gone := fun _ => rfl
        inStep := ht.inStep
        outOfStep := ht.outOfStep }

/-! ## A session -/

theorem standing_isSome_iff (calls : List SendCall) :
    (standing calls).isSome ↔ StrokePrefix (touches true (calls.map received)) := by
  rw [touches_received]
  exact scan_isSome_iff (c := TouchAction.up) rfl _

/-- The calls of a window are no texts. -/
theorem noText (h : List (GtkEvent R)) (t : CStr) : SendCall.text t ∉ (play h).calls := by
  have hsend : ∀ (s : Session) (call : SendCall), SendCall.text t ∉ s.calls →
      call ≠ .text t → SendCall.text t ∉ (s.send call).calls := by
    intro s call hs hcall
    simp only [Session.send]
    split
    · simp [hs, hcall.symm]
    · exact hs
  induction h with
  | nil => exact List.not_mem_nil
  | cons e h ih =>
    cases e with
    | pressed b x y =>
      show SendCall.text t ∉ ((play h).onPressed b x y).calls
      simp only [Session.onPressed]
      repeat' split
      all_goals first | exact ih | exact hsend _ _ ih nofun
    | released b x y =>
      show SendCall.text t ∉ ((play h).onReleased b x y).calls
      simp only [Session.onReleased]
      split
      · exact ih
      · exact hsend _ _ ih nofun
    | motion x y =>
      show SendCall.text t ∉ ((play h).onMotion x y).calls
      simp only [Session.onMotion]
      repeat' split
      all_goals first | exact ih | exact hsend _ _ ih nofun
    | scroll dx dy =>
      show SendCall.text t ∉ ((play h).onScroll dx dy).calls
      simp only [Session.onScroll]
      split
      · exact ih
      · exact hsend _ _ ih nofun
    | allocate width height => exact ih
    | connected =>
      show SendCall.text t ∉ (if (play h).client then _ else play h).calls
      split <;> exact ih
    | frame width height =>
      show SendCall.text t ∉ (if (play h).control then _ else play h).calls
      split <;> exact ih
    | teardown => exact ih

theorem standing_prefix {calls calls' : List SendCall} (hle : calls <+: calls')
    (h : (standing calls').isSome) : (standing calls).isSome :=
  scan_prefix h (hle.filterMap touchOf)

theorem standing_tracks {h : List (GtkEvent R)} (ha : Alternating h) :
    (standing (play h).calls).isSome ↔ ReleasesMatched h := by
  have ht := tracks h ha
  by_cases hr : ReleasesMatched h
  · simp [ht.inStep hr, hr]
  · simp [ht.outOfStep hr, hr]

/-- **Strokes of a finger, as long as no release is stray.** The events of a window are
any history whose presses and releases alternate for each button, and the system lets
the writes of its calls complete. When all their bytes arrive, cut in any way, the
touches that are injected are a prefix of strokes if and only if there is no input to
inject them into or every release of the primary button that was sent had its press in
the video. When a part of the bytes arrives, that is enough. -/
theorem touches_strokes (h : List (GtkEvent R)) (ha : Alternating h) (input : Bool) (fd : Nat)
    (sends : List (SendCall × SendEnv)) (hcalls : sentCalls sends = (play h).calls)
    (hw : ∀ p ∈ sends, (rcNetWriteFull p.1.buffer p.2.writes).2 = some .ok) :
    (∀ src : InputStream, src.bytes = (sendAll (opened fd) sends).1.sent →
      (StrokePrefix (touches input (run src).1) ↔ input = false ∨ ReleasesMatched h)) ∧
    ∀ src : InputStream, src.bytes <+: (sendAll (opened fd) sends).1.sent →
      input = false ∨ ReleasesMatched h → StrokePrefix (touches input (run src).1) := by
  have htext : ∀ t, SendCall.text t ∉ sentCalls sends := fun t => hcalls ▸ noText h t
  have hs : ∀ p ∈ sends, p.1.Sendable p.2 := by
    intro p hp
    have hmem : p.1 ∈ sentCalls sends := List.mem_map_of_mem hp
    cases hcall : p.1 with
    | text t => exact absurd (hcall ▸ hmem) (htext t)
    | _ => trivial
  obtain ⟨-, hsent⟩ := sendAll_sent (c := opened fd) rfl rfl hs hw
  replace hsent : (sendAll (opened fd) sends).1.sent = (play h).calls.flatMap SendCall.wire := by
    rw [hsent, ← hcalls]
    rfl
  have hnil : StrokePrefix [] := ⟨[], Language.nil_mem_kstar _⟩
  have hrun : ∀ src : InputStream, src.bytes <+: (play h).calls.flatMap SendCall.wire →
      (run src).1 = (arrived SendCall.wire (play h).calls src.bytes).map received := fun src hp =>
    (run_wire (fun t ht => absurd (hcalls ▸ ht) (htext t)) hp).1
  refine ⟨fun src hsrc => ?_, fun src hsrc hr => ?_⟩
  · rw [hsent] at hsrc
    have hall := hrun src (hsrc ▸ List.prefix_rfl)
    rw [hsrc, arrived_all] at hall
    cases input with
    | false => simp [touches, hnil]
    | true => rw [hall, ← standing_isSome_iff, standing_tracks ha]; simp
  · rw [hsent] at hsrc
    cases input with
    | false => exact hnil
    | true =>
      have hmatched : ReleasesMatched h := hr.resolve_left (by decide)
      obtain ⟨hle, -⟩ := arrived_prefix SendCall.wire hsrc
      rw [hrun src hsrc, ← standing_isSome_iff]
      exact standing_prefix hle ((standing_tracks ha).mpr hmatched)

/-- Exact arithmetic, on whose whole numbers below `2 ^ 24` a `float` is exact too. -/
instance : DoubleOps Rat where
  lt a b := a < b
  toFloat q :=
    let n := q.num.toNat
    if n = 0 then 0
    else UInt32.ofNat ((127 + n.log2) * 2 ^ 23 + (n * 2 ^ (23 - n.log2) - 2 ^ 23))

/-- A window of 200 by 100 with a video of 100 by 100 in the middle. -/
def demoWindow : List (GtkEvent Rat) := [.frame 100 100, .connected, .allocate 200 100]

/-- A drag from the video over its edge. -/
def demoDrag : List (GtkEvent Rat) :=
  .released 1 160 50 :: .motion 70 20 :: .pressed 1 60 10 :: demoWindow

def demoSends : List (SendCall × SendEnv) :=
  [(.mouseButton 1 1 1 0x41200000 0x41200000, ⟨true, [.wrote 18]⟩),
    (.mouseMotion 1 0x41A00000 0x41A00000, ⟨true, [.wrote 13]⟩),
    (.mouseButton 0 1 0 0x41A00000 0x41A00000, ⟨true, [.wrote 18]⟩)]

theorem touches_strokes_drag :
    StrokePrefix (touches true (run [.data (sendAll (opened 5) demoSends).1.sent]).1) :=
  ((touches_strokes demoDrag (by decide +kernel) true 5 demoSends
    (by decide +kernel) (by decide)).1
    [.data (sendAll (opened 5) demoSends).1.sent] (by decide)).mpr (.inr (by decide +kernel))

/-- A click beside the video. -/
def demoStray : List (GtkEvent Rat) := .released 1 10 50 :: .pressed 1 10 50 :: demoWindow

def demoStraySends : List (SendCall × SendEnv) :=
  [(.mouseButton 0 1 0 0 0, ⟨true, [.wrote 18]⟩)]

/-- Its release is sent and its press is not: the finger goes up that never went down. -/
theorem touches_stray_up :
    Alternating demoStray ∧ sentCalls demoStraySends = (play demoStray).calls ∧
      touches true (run [.data (sendAll (opened 5) demoStraySends).1.sent]).1 = [.up] ∧
      ¬StrokePrefix [.up] := by
  refine ⟨by decide +kernel, by decide +kernel, by decide, ?_⟩
  rw [StrokePrefix, ← scan_isSome_iff (c := TouchAction.up) rfl]
  decide

end RigControl.Wire
