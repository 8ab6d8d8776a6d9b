import RigControl.Lib.Lts

/-!
# A session from its window to its end

`session.c`, with the callbacks of `render.c` that GLib calls: the timers and the idle
callbacks on the UI thread, the thread that runs `rc_client_start`, the threads of the core
for the video and for the sound, and `session_teardown`, which a closed window and the end
of the program both call.

The teardown waits for these threads. The audio thread may be in a write into a ring that is
full and from which nothing is taken any more; then it does not come back, and neither does
`rc_client_stop`.

A use of something that is gone does not stop the model: it is noted in `faults`. A step
of the UI thread is a callback, or one of the parts of the teardown, between which
the other threads run.
-/

namespace RigControl.Gtk

open RigControl.Lib

/-- What a thread has used after its end: the client, a source of GLib, a widget, the planes,
the session itself. -/
inductive Dangling where
  | client | source | widget | plane | session
  deriving DecidableEq, Repr

/-- Where the UI thread is: in its loop, before a part of the teardown, behind it. -/
inductive Teardown where
  | live
  | removeFps
  | removeTitle
  | abort
  | join
  | stop
  | destroy
  | freePlanes
  | over
  deriving DecidableEq, Repr

def Teardown.rank : Teardown → Nat
  | .live => 0
  | .removeFps => 1
  | .removeTitle => 2
  | .abort => 3
  | .join => 4
  | .stop => 5
  | .destroy => 6
  | .freePlanes => 7
  | .over => 8

/-- Where `start_thread` is: before `rc_client_start`, in it, behind it, at its end. -/
inductive Starting where
  | created | inside | returned | done
  deriving DecidableEq, Repr

/-- The steps it has still to take. -/
def Starting.left : Starting → Nat
  | .created => 3
  | .inside => 2
  | .returned => 1
  | .done => 0

/-- Where `audio_thread_fn` is: not started, or over; running; in a write that never ends. -/
inductive Sounding where
  | ended | running | stuck
  deriving DecidableEq, Repr

def Sounding.left : Sounding → Nat
  | .running => 1
  | _ => 0

structure GtkSession where
  torn : Bool
  alive : Bool
  gl : Bool
  client : Bool
  fpsTimer : Bool
  titleTimer : Bool
  startThread : Bool
  -- what the fields point to
  windowGone : Bool
  clientGone : Bool
  planesGone : Bool
  gone : Bool
  fpsSource : Bool
  titleSource : Bool
  -- the threads
  ui : Teardown
  /-- `session_free` has called the teardown. -/
  freeing : Bool
  mainLoop : Bool
  starting : Starting
  net : Bool
  audio : Sounding
  triggers : Nat
  resizes : Nat
  stops : Nat
  destroys : Nat
  faults : List Dangling
  deriving DecidableEq, Repr

namespace GtkSession

/-- Behind `session_new`. -/
def init (showFps : Bool) : GtkSession :=
  { torn := false, alive := true, gl := true, client := true, fpsTimer := showFps,
    titleTimer := true, startThread := true, windowGone := false, clientGone := false,
    planesGone := false, gone := false, fpsSource := showFps, titleSource := true, ui := .live,
    freeing := false, mainLoop := true, starting := .created, net := false, audio := .ended,
    triggers := 0, resizes := 0, stops := 0, destroys := 0, faults := [] }

def note (s : GtkSession) (bad : Bool) (what : Dangling) : GtkSession :=
  if bad then { s with faults := s.faults ++ [what] } else s

/-- `st->…`. -/
def deref (s : GtkSession) : GtkSession := s.note s.gone .session

/-- A function of `libcore` on `st->client`. -/
def useClient (s : GtkSession) : GtkSession := s.deref.note (!s.client || s.clientGone) .client

/-- The threads of the core, and `rc_client_start`, have the client already. -/
def insideClient (s : GtkSession) : GtkSession := s.note s.clientGone .client

def setTitle (s : GtkSession) : GtkSession := s.note s.windowGone .widget

/-! ## The callbacks of the UI thread -/

def fpsTick (s : GtkSession) : GtkSession :=
  if s.alive then (if s.client then s.deref.useClient else s.deref).setTitle
  else { s.deref with fpsSource := false }

/-- `known`: there is a description of the transport. -/
def titleTick (s : GtkSession) (known : Bool) : GtkSession :=
  if s.alive then
    let s := if s.client then s.deref.useClient else s.deref
    if known && s.client then { s.setTitle with titleTimer := false, titleSource := false } else s
  else { s.deref with titleTimer := false, titleSource := false }

/-- `trigger_render`. -/
def triggerRender (s : GtkSession) : GtkSession :=
  let s := { s.deref with triggers := s.triggers - 1 }
  if s.alive && s.gl then s.note s.windowGone .widget else s

/-- `resize_to_video`. -/
def resizeToVideo (s : GtkSession) : GtkSession :=
  let s := { s.deref with resizes := s.resizes - 1 }
  if s.alive then s.note s.windowGone .widget else s

/-! ## The teardown -/

/-- `session_teardown` up to its first call. -/
def tear (s : GtkSession) : GtkSession :=
  if s.torn then s.deref
  else { s.deref with torn := true, alive := false, gl := false, ui := .removeFps }

/-- The end of `session_free`. -/
def finish (s : GtkSession) : GtkSession :=
  if s.freeing then { s.deref with gone := true } else s

/-- `session_free`, up to the first part of a teardown that is still to come. -/
def sessionFree (s : GtkSession) : GtkSession :=
  if s.tear.ui = .over then finish { s.tear with freeing := true }
  else { s.tear with freeing := true }

/-- A part of the teardown; none while it waits for a thread. -/
def teardownStep (s : GtkSession) : Option GtkSession :=
  match s.ui with
  | .live | .over => none
  | .removeFps =>
    some (if s.fpsTimer then
        { s.note (!s.fpsSource) .source with
          fpsTimer := false, fpsSource := false, ui := .removeTitle }
      else { s with ui := .removeTitle })
  | .removeTitle =>
    some (if s.titleTimer then
        { s.note (!s.titleSource) .source with
          titleTimer := false, titleSource := false, ui := .abort }
      else { s with ui := .abort })
  | .abort => some { (if s.client then s.useClient else s) with ui := .join }
  | .join =>
    if s.startThread then
      if s.starting = .done then some { s with startThread := false, ui := .stop } else none
    else some { s with ui := .stop }
  | .stop =>
    if s.net || s.audio ≠ .ended then none
    else some { s.useClient with stops := s.stops + 1, ui := .destroy }
  | .destroy =>
    some { s.useClient with
      destroys := s.destroys + 1, clientGone := true, client := false, ui := .freePlanes }
  | .freePlanes => some (finish { s with planesGone := true, ui := .over })

/-! ## The other threads -/

/-- `render_on_frame`; the frame has another size, and no render is scheduled. -/
def frame (s : GtkSession) (resized unscheduled : Bool) : GtkSession :=
  let s := s.insideClient.deref.note s.planesGone .plane
  { s with
    resizes := s.resizes + resized.toNat
    triggers := s.triggers + unscheduled.toNat }

end GtkSession

inductive SessionAct where
  | fpsTick
  | titleTick (known : Bool)
  | triggerRender
  | resizeToVideo
  /-- The signal `destroy` of the window. -/
  | close
  /-- The end of `g_application_run`. -/
  | quit
  | sessionFree
  | teardown
  /-- `start_thread`: into `rc_client_start`, a call in it, the threads of the core, out. -/
  | startClient
  | starting
  | startNet
  | startAudio
  | started
  | startEnd
  | frame (resized unscheduled : Bool)
  | netEnd
  /-- A turn of `audio_thread_fn`. -/
  | sound
  /-- `rb_write_blocking` finds the ring full, and the device takes nothing any more. -/
  | hang
  | audioEnd
  deriving DecidableEq, Repr

/-- The parts of a teardown, and the steps of the threads to their ends. -/
def SessionAct.ending : SessionAct → Bool
  | .teardown | .startClient | .started | .startEnd | .netEnd | .audioEnd => true
  | _ => false

namespace GtkSession

/-- The UI thread is free for a callback. -/
def idle (s : GtkSession) : Bool := s.mainLoop && (s.ui = .live || s.ui = .over)

def step (s : GtkSession) : SessionAct → Option GtkSession
  | .fpsTick => if s.idle && s.fpsSource then some s.fpsTick else none
  | .titleTick known => if s.idle && s.titleSource then some (s.titleTick known) else none
  | .triggerRender => if s.idle && 0 < s.triggers then some s.triggerRender else none
  | .resizeToVideo => if s.idle && 0 < s.resizes then some s.resizeToVideo else none
  | .close => if s.idle then some { s.tear with windowGone := true } else none
  | .quit => if s.idle then some { s with mainLoop := false } else none
  | .sessionFree =>
    if !s.mainLoop && !s.freeing && (s.ui = .live || s.ui = .over) then some s.sessionFree
    else none
  | .teardown => s.teardownStep
  | .startClient =>
    if s.starting = .created then some { s.useClient with starting := .inside } else none
  | .starting => if s.starting = .inside then some s.insideClient else none
  | .startNet =>
    if s.starting = .inside && !s.net then some { s.insideClient with net := true } else none
  | .startAudio =>
    if s.starting = .inside && s.audio = .ended then some { s.insideClient with audio := .running }
    else none
  | .started =>
    if s.starting = .inside then some { s.insideClient with starting := .returned } else none
  | .startEnd =>
    if s.starting = .returned then some { s.deref with starting := .done } else none
  | .frame resized unscheduled => if s.net then some (s.frame resized unscheduled) else none
  | .netEnd => if s.net then some { s.insideClient with net := false } else none
  | .sound => if s.audio = .running then some s.insideClient else none
  | .hang => if s.audio = .running then some { s.insideClient with audio := .stuck } else none
  | .audioEnd => if s.audio = .running then some { s.insideClient with audio := .ended } else none

end GtkSession

def sessionLts (showFps : Bool) : Lts GtkSession SessionAct :=
  { init := .init showFps, step := GtkSession.step }

namespace GtkSession

variable {s s' : GtkSession}

/-- What there is at each point of the teardown, and that nothing has gone wrong. -/
structure Inv (s : GtkSession) : Prop where
  sound : s.faults = []
  torn : s.torn = decide (0 < s.ui.rank)
  alive : s.alive = !s.torn
  gl : s.gl = !s.torn
  client : s.client = decide (s.ui.rank ≤ 6)
  clientGone : s.clientGone = decide (7 ≤ s.ui.rank)
  planesGone : s.planesGone = decide (8 ≤ s.ui.rank)
  fps : s.fpsSource = s.fpsTimer
  title : s.titleSource = s.titleTimer
  fpsTimer : s.fpsTimer = true → s.ui.rank ≤ 1
  titleTimer : s.titleTimer = true → s.ui.rank ≤ 2
  startThread : s.startThread = decide (s.ui.rank ≤ 4)
  starting : s.starting ≠ .done → s.ui.rank ≤ 4
  net : s.net = true → s.ui.rank ≤ 5
  audio : s.audio ≠ .ended → s.ui.rank ≤ 5
  window : s.windowGone = true → s.torn = true
  gone : s.gone = true → s.ui.rank = 8 ∧ s.mainLoop = false ∧ s.freeing = true
  freeing : s.freeing = true → s.mainLoop = false
  stops : s.stops = if 6 ≤ s.ui.rank then 1 else 0
  destroys : s.destroys = if 7 ≤ s.ui.rank then 1 else 0

theorem inv_init (showFps : Bool) : (init showFps).Inv := by
  constructor <;> simp [init, Teardown.rank]

/-! ## Nothing dangles -/

@[simp] theorem note_false (s : GtkSession) (what : Dangling) : s.note false what = s := rfl

theorem deref_eq (hgone : s.gone = false) : s.deref = s := by
  rw [deref, hgone, note_false]

theorem Inv.gone_of_lt (h : s.Inv) (hrank : s.ui.rank < 8) : s.gone = false := by
  cases hgone : s.gone with
  | false => rfl
  | true =>
    have hover := (h.gone hgone).1
    omega

theorem Inv.gone_of_loop (h : s.Inv) (hloop : s.mainLoop = true) : s.gone = false := by
  cases hgone : s.gone with
  | false => rfl
  | true => rw [(h.gone hgone).2.1] at hloop; cases hloop

theorem Inv.useClient (h : s.Inv) (hrank : s.ui.rank ≤ 6) : s.useClient = s := by
  have hclient : s.client = true := by rw [h.client]; exact decide_eq_true hrank
  have hgone : s.clientGone = false := by
    rw [h.clientGone]
    exact decide_eq_false (by omega)
  rw [GtkSession.useClient, deref_eq (h.gone_of_lt (by omega)), hclient, hgone]
  rfl

theorem Inv.insideClient (h : s.Inv) (hrank : s.ui.rank ≤ 6) : s.insideClient = s := by
  have hgone : s.clientGone = false := by
    rw [h.clientGone]
    exact decide_eq_false (by omega)
  rw [GtkSession.insideClient, hgone, note_false]

theorem Inv.window_of_live (h : s.Inv) (hrank : s.ui.rank = 0) : s.windowGone = false := by
  cases hgone : s.windowGone with
  | false => rfl
  | true =>
    have htorn := h.window hgone
    rw [h.torn, hrank] at htorn
    cases htorn

theorem Inv.alive_iff (h : s.Inv) : s.alive = true ↔ s.ui.rank = 0 := by
  rw [h.alive, h.torn]
  cases hrank : s.ui.rank <;> simp

/-- The counts of the idle callbacks do not matter. -/
theorem Inv.idles (h : s.Inv) (triggers resizes : Nat) :
    Inv { s with triggers := triggers, resizes := resizes } :=
  { h with }

/-! ## The callbacks -/

theorem idle_cases (h : s.idle = true) : s.mainLoop = true ∧ (s.ui.rank = 0 ∨ s.ui.rank = 8) := by
  simp only [idle, Bool.and_eq_true, Bool.or_eq_true, decide_eq_true_eq] at h
  refine ⟨h.1, h.2.imp (fun hui => ?_) fun hui => ?_⟩
  · rw [hui]
    rfl
  · rw [hui]
    rfl

/-- In a callback of a session that is not torn down, everything is there. -/
theorem Inv.live (h : s.Inv) (hrank : s.ui.rank = 0) :
    s.alive = true ∧ s.client = true ∧ s.deref = s ∧ s.useClient = s ∧ s.windowGone = false := by
  refine ⟨h.alive_iff.mpr hrank, ?_, deref_eq (h.gone_of_lt (by omega)), h.useClient (by omega),
    h.window_of_live hrank⟩
  rw [h.client, hrank]
  rfl

theorem Inv.fpsTick (h : s.Inv) (hidle : s.idle = true) (hsource : s.fpsSource = true) :
    s.fpsTick = s := by
  have hle := h.fpsTimer (h.fps ▸ hsource)
  obtain ⟨halive, hclient, hderef, huse, hwindow⟩ := h.live (by have := (idle_cases hidle).2; omega)
  rw [GtkSession.fpsTick, if_pos halive, if_pos hclient, hderef, huse, setTitle, hwindow, note_false]

theorem Inv.titleTick (h : s.Inv) (hidle : s.idle = true) (hsource : s.titleSource = true)
    (known : Bool) : (s.titleTick known).Inv := by
  have hle := h.titleTimer (h.title ▸ hsource)
  have hrank : s.ui.rank = 0 := by have := (idle_cases hidle).2; omega
  obtain ⟨halive, hclient, hderef, huse, hwindow⟩ := h.live hrank
  rw [GtkSession.titleTick, if_pos halive]
  simp only [hclient, ↓reduceIte, hderef, huse, Bool.and_true]
  cases known with
  | false => exact h
  | true =>
    rw [if_pos rfl, setTitle, hwindow, note_false]
    exact { h with title := rfl, titleTimer := nofun }

theorem Inv.triggerRender (h : s.Inv) (hidle : s.idle = true) : s.triggerRender.Inv := by
  have hloop := (idle_cases hidle).1
  have hmove := h.idles (s.triggers - 1) s.resizes
  rw [GtkSession.triggerRender, deref_eq (h.gone_of_loop hloop)]
  split
  · rename_i halive
    rw [Bool.and_eq_true] at halive
    rw [show GtkSession.note _ s.windowGone _ = _ from
      congrArg (note _ · _) (h.window_of_live (h.alive_iff.mp halive.1))]
    exact hmove
  · exact hmove

theorem Inv.resizeToVideo (h : s.Inv) (hidle : s.idle = true) : s.resizeToVideo.Inv := by
  have hloop := (idle_cases hidle).1
  have hmove := h.idles s.triggers (s.resizes - 1)
  rw [GtkSession.resizeToVideo, deref_eq (h.gone_of_loop hloop)]
  split
  · rename_i halive
    rw [show GtkSession.note _ s.windowGone _ = _ from
      congrArg (note _ · _) (h.window_of_live (h.alive_iff.mp halive))]
    exact hmove
  · exact hmove

/-! ## The teardown -/

/-- What there is at a point of the teardown. -/
theorem Inv.at_rank (h : s.Inv) {rank : Nat} (hrank : s.ui.rank = rank) :
    s.torn = decide (0 < rank) ∧ s.client = decide (rank ≤ 6) ∧
      s.clientGone = decide (7 ≤ rank) ∧ s.planesGone = decide (8 ≤ rank) ∧
      s.startThread = decide (rank ≤ 4) ∧ s.stops = (if 6 ≤ rank then 1 else 0) ∧
      s.destroys = if 7 ≤ rank then 1 else 0 := by
  subst hrank
  exact ⟨h.torn, h.client, h.clientGone, h.planesGone, h.startThread, h.stops, h.destroys⟩

theorem Inv.tear (h : s.Inv) (hgone : s.gone = false) : s.tear.Inv ∧ s.tear.torn = true := by
  rw [GtkSession.tear, deref_eq hgone]
  split
  · exact ⟨h, ‹_›⟩
  · rename_i htorn
    have hzero : s.ui.rank = 0 := by
      rw [h.torn, decide_eq_true_eq] at htorn
      omega
    obtain ⟨-, hclient, hclientGone, hplanes, hthread, hstops, hdestroys⟩ := h.at_rank hzero
    refine ⟨{ h with
      torn := rfl, alive := rfl, gl := rfl, client := hclient, clientGone := hclientGone,
      planesGone := hplanes, fpsTimer := fun _ => Nat.le_refl 1,
      titleTimer := fun _ => Nat.le_succ 1, startThread := hthread,
      starting := fun _ => Nat.le_add_left 1 3, net := fun _ => Nat.le_add_left 1 4,
      audio := fun _ => Nat.le_add_left 1 4, window := fun _ => rfl,
      gone := fun hg => absurd (hgone.symm.trans hg) nofun,
      stops := hstops, destroys := hdestroys }, rfl⟩

theorem Inv.close (h : s.Inv) (hidle : s.idle = true) :
    Inv { s.tear with windowGone := true } := by
  obtain ⟨ht, htorn⟩ := h.tear (h.gone_of_loop (idle_cases hidle).1)
  exact { ht with window := fun _ => htorn }

/-- The end of `session_free`, behind the whole teardown. -/
theorem Inv.finish (h : s.Inv) (hover : s.ui = .over) (hgone : s.gone = false) :
    s.finish.Inv := by
  unfold GtkSession.finish
  split
  · rename_i hfreeing
    rw [deref_eq hgone]
    exact { h with gone := fun _ => ⟨congrArg Teardown.rank hover, h.freeing hfreeing, hfreeing⟩ }
  · exact h

theorem Inv.removeFps (h : s.Inv) (hui : s.ui = .removeFps) :
    (if s.fpsTimer then
        { s.note (!s.fpsSource) .source with
          fpsTimer := false, fpsSource := false, ui := .removeTitle }
      else { s with ui := .removeTitle }).Inv := by
  have hrank : s.ui.rank = 1 := by rw [hui]; rfl
  obtain ⟨htorn, hclient, hclientGone, hplanes, hthread, hstops, hdestroys⟩ := h.at_rank hrank
  have hgone := h.gone_of_lt (by omega)
  split
  · rename_i htimer
    rw [h.fps, htimer]
    refine { h with
      torn := ?_, client := ?_, clientGone := ?_, planesGone := ?_, fps := rfl, fpsTimer := nofun,
      titleTimer := ?_, startThread := ?_, starting := ?_, net := ?_, audio := ?_, gone := ?_,
      stops := ?_, destroys := ?_ } <;> simp [*, Teardown.rank]
  · rename_i htimer
    refine { h with
      torn := ?_, client := ?_, clientGone := ?_, planesGone := ?_, fpsTimer := ?_,
      titleTimer := ?_, startThread := ?_, starting := ?_, net := ?_, audio := ?_, gone := ?_,
      stops := ?_, destroys := ?_ } <;> simp [*, Teardown.rank]

theorem Inv.removeTitle (h : s.Inv) (hui : s.ui = .removeTitle) :
    (if s.titleTimer then
        { s.note (!s.titleSource) .source with
          titleTimer := false, titleSource := false, ui := .abort }
      else { s with ui := .abort }).Inv := by
  have hrank : s.ui.rank = 2 := by rw [hui]; rfl
  obtain ⟨htorn, hclient, hclientGone, hplanes, hthread, hstops, hdestroys⟩ := h.at_rank hrank
  have hgone := h.gone_of_lt (by omega)
  have hfps : s.fpsTimer = false := by
    have := h.fpsTimer
    rw [hrank] at this
    simpa using this
  split
  · rename_i htimer
    rw [h.title, htimer]
    refine { h with
      torn := ?_, client := ?_, clientGone := ?_, planesGone := ?_, title := rfl, fpsTimer := ?_,
      titleTimer := nofun, startThread := ?_, starting := ?_, net := ?_, audio := ?_, gone := ?_,
      stops := ?_, destroys := ?_ } <;> simp [*, Teardown.rank]
  · rename_i htimer
    refine { h with
      torn := ?_, client := ?_, clientGone := ?_, planesGone := ?_, fpsTimer := ?_,
      titleTimer := ?_, startThread := ?_, starting := ?_, net := ?_, audio := ?_, gone := ?_,
      stops := ?_, destroys := ?_ } <;> simp [*, Teardown.rank]

/-- A point of the teardown behind the timers, one further than the last. -/
theorem Inv.advance (h : s.Inv) (hrank : 3 ≤ s.ui.rank) {ui : Teardown} {stops destroys : Nat}
    {client clientGone planesGone startThread : Bool}
    (hnext : ui.rank = s.ui.rank + 1) (hclient : client = decide (ui.rank ≤ 6))
    (hclientGone : clientGone = decide (7 ≤ ui.rank))
    (hplanes : planesGone = decide (8 ≤ ui.rank)) (hthread : startThread = decide (ui.rank ≤ 4))
    (hstarting : s.starting ≠ .done → ui.rank ≤ 4) (hnet : s.net = true → ui.rank ≤ 5)
    (haudio : s.audio ≠ .ended → ui.rank ≤ 5)
    (hstops : stops = if 6 ≤ ui.rank then 1 else 0)
    (hdestroys : destroys = if 7 ≤ ui.rank then 1 else 0) (hgone : s.gone = false) :
    Inv { s with
      ui := ui, client := client, clientGone := clientGone, planesGone := planesGone,
      startThread := startThread, stops := stops, destroys := destroys } := by
  have htorn : s.torn = decide (0 < ui.rank) := by
    rw [h.torn, decide_eq_true (by omega), decide_eq_true (by omega)]
  exact { h with
    torn := htorn, client := hclient, clientGone := hclientGone, planesGone := hplanes,
    fpsTimer := fun ht => absurd (h.fpsTimer ht) (by omega),
    titleTimer := fun ht => absurd (h.titleTimer ht) (by omega),
    startThread := hthread, starting := hstarting, net := hnet, audio := haudio,
    gone := fun hg => absurd (hgone.symm.trans hg) nofun, stops := hstops,
    destroys := hdestroys }

/-- A part of the teardown leaves what the next part finds. -/
theorem Inv.teardownStep (h : s.Inv) (hstep : s.teardownStep = some s') : s'.Inv := by
  unfold GtkSession.teardownStep at hstep
  split at hstep
  · cases hstep
  · cases hstep
  · rename_i hui
    cases hstep
    exact h.removeFps hui
  · rename_i hui
    cases hstep
    exact h.removeTitle hui
  · rename_i hui
    have hrank : s.ui.rank = 3 := by rw [hui]; rfl
    obtain ⟨-, hclient, hclientGone, hplanes, hthread, hstops, hdestroys⟩ := h.at_rank hrank
    cases hstep
    rw [h.useClient (by omega), ite_self]
    exact h.advance (by omega) (by rw [hrank]; rfl) hclient hclientGone hplanes hthread
      (fun _ => Nat.le_refl 4) (fun _ => Nat.le_succ 4) (fun _ => Nat.le_succ 4) hstops hdestroys
      (h.gone_of_lt (by omega))
  · rename_i hui
    have hrank : s.ui.rank = 4 := by rw [hui]; rfl
    obtain ⟨-, hclient, hclientGone, hplanes, hthread, hstops, hdestroys⟩ := h.at_rank hrank
    rw [if_pos (show s.startThread = true from hthread)] at hstep
    split at hstep
    · rename_i hdone
      cases hstep
      exact h.advance (by omega) (by rw [hrank]; rfl) hclient hclientGone hplanes rfl
        (fun hne => absurd hdone hne) (fun _ => Nat.le_refl 5) (fun _ => Nat.le_refl 5) hstops
        hdestroys (h.gone_of_lt (by omega))
    · cases hstep
  · rename_i hui
    have hrank : s.ui.rank = 5 := by rw [hui]; rfl
    obtain ⟨-, hclient, hclientGone, hplanes, hthread, hstops, hdestroys⟩ := h.at_rank hrank
    split at hstep
    · cases hstep
    · rename_i hjoined
      rw [Bool.or_eq_true, decide_eq_true_eq, not_or] at hjoined
      cases hstep
      rw [h.useClient (by omega), hstops]
      exact h.advance (by omega) (by rw [hrank]; rfl) hclient hclientGone hplanes hthread
        (fun hne => absurd (h.starting hne) (by omega)) (fun hn => absurd hn hjoined.1)
        (fun hne => absurd hne hjoined.2) rfl hdestroys (h.gone_of_lt (by omega))
  · rename_i hui
    have hrank : s.ui.rank = 6 := by rw [hui]; rfl
    obtain ⟨-, hclient, hclientGone, hplanes, hthread, hstops, hdestroys⟩ := h.at_rank hrank
    cases hstep
    rw [h.useClient (by omega), hdestroys]
    exact h.advance (by omega) (by rw [hrank]; rfl) rfl rfl hplanes hthread
      (fun hne => absurd (h.starting hne) (by omega)) (fun hn => absurd (h.net hn) (by omega))
      (fun hne => absurd (h.audio hne) (by omega)) hstops rfl (h.gone_of_lt (by omega))
  · rename_i hui
    have hrank : s.ui.rank = 7 := by rw [hui]; rfl
    obtain ⟨-, hclient, hclientGone, hplanes, hthread, hstops, hdestroys⟩ := h.at_rank hrank
    cases hstep
    have hgone := h.gone_of_lt (by omega)
    refine Inv.finish ?_ rfl hgone
    exact h.advance (by omega) (by rw [hrank]; rfl) hclient hclientGone rfl hthread
      (fun hne => absurd (h.starting hne) (by omega)) (fun hn => absurd (h.net hn) (by omega))
      (fun hne => absurd (h.audio hne) (by omega)) hstops hdestroys hgone

theorem Inv.sessionFree (h : s.Inv) (hloop : s.mainLoop = false) (hfreeing : s.freeing = false) :
    s.sessionFree.Inv := by
  have hgone : s.gone = false := by
    cases hg : s.gone with
    | false => rfl
    | true => exact absurd (hfreeing.symm.trans (h.gone hg).2.2) nofun
  have hsame : s.tear.mainLoop = s.mainLoop ∧ s.tear.gone = s.gone := by
    rw [GtkSession.tear, deref_eq hgone]
    split <;> exact ⟨rfl, rfl⟩
  have htear := (h.tear hgone).1
  have hfree : Inv { s.tear with freeing := true } :=
    { htear with
      gone := fun hg => absurd ((hsame.2.trans hgone).symm.trans hg) nofun
      freeing := fun _ => hsame.1.trans hloop }
  unfold GtkSession.sessionFree
  split
  · exact hfree.finish ‹_› (hsame.2.trans hgone)
  · exact hfree

/-! ## The other threads -/

/-- The thread of `rc_client_start` has not been joined. -/
theorem Inv.startClient (h : s.Inv) (hstarting : s.starting = .created) :
    Inv { s.useClient with starting := .inside } := by
  have hrank := h.starting (by rw [hstarting]; exact nofun)
  rw [h.useClient (by omega)]
  exact { h with starting := fun _ => hrank }

theorem Inv.inside (h : s.Inv) (hstarting : s.starting = .inside) :
    s.insideClient = s ∧ s.ui.rank ≤ 4 := by
  have hrank := h.starting (by rw [hstarting]; exact nofun)
  exact ⟨h.insideClient (by omega), hrank⟩

theorem Inv.startEnd (h : s.Inv) (hstarting : s.starting = .returned) :
    Inv { s.deref with starting := .done } := by
  have hrank := h.starting (by rw [hstarting]; exact nofun)
  rw [deref_eq (h.gone_of_lt (by omega))]
  exact { h with starting := fun hne => absurd rfl hne }

/-- The thread of the core has not been joined: the client and the planes are there. -/
theorem Inv.frame (h : s.Inv) (hnet : s.net = true) (resized unscheduled : Bool) :
    (s.frame resized unscheduled).Inv := by
  have hrank := h.net hnet
  have hplanes : s.planesGone = false := by
    rw [h.planesGone]
    exact decide_eq_false (by omega)
  rw [GtkSession.frame, h.insideClient (by omega), deref_eq (h.gone_of_lt (by omega)), hplanes,
    note_false]
  exact h.idles _ _

theorem Inv.netEnd (h : s.Inv) (hnet : s.net = true) : Inv { s.insideClient with net := false } := by
  have hrank := h.net hnet
  rw [h.insideClient (by omega)]
  exact { h with net := nofun }

/-- The audio thread has not been joined. -/
theorem Inv.sounding (h : s.Inv) (haudio : s.audio = .running) :
    s.insideClient = s ∧ s.ui.rank ≤ 5 := by
  have hrank := h.audio (by rw [haudio]; exact nofun)
  exact ⟨h.insideClient (by omega), hrank⟩

/-! ## Over a run -/

theorem Inv.step (h : s.Inv) {act : SessionAct} (hstep : s.step act = some s') : s'.Inv := by
  cases act with
  | fpsTick =>
    obtain ⟨hg, ⟨⟩⟩ := Option.ite_none_right_eq_some.mp hstep
    rw [Bool.and_eq_true] at hg
    rw [h.fpsTick hg.1 hg.2]
    exact h
  | titleTick known =>
    obtain ⟨hg, ⟨⟩⟩ := Option.ite_none_right_eq_some.mp hstep
    rw [Bool.and_eq_true] at hg
    exact h.titleTick hg.1 hg.2 known
  | triggerRender =>
    obtain ⟨hg, ⟨⟩⟩ := Option.ite_none_right_eq_some.mp hstep
    rw [Bool.and_eq_true] at hg
    exact h.triggerRender hg.1
  | resizeToVideo =>
    obtain ⟨hg, ⟨⟩⟩ := Option.ite_none_right_eq_some.mp hstep
    rw [Bool.and_eq_true] at hg
    exact h.resizeToVideo hg.1
  | close =>
    obtain ⟨hg, ⟨⟩⟩ := Option.ite_none_right_eq_some.mp hstep
    exact h.close hg
  | quit =>
    obtain ⟨hg, ⟨⟩⟩ := Option.ite_none_right_eq_some.mp hstep
    have hgone := h.gone_of_loop (idle_cases hg).1
    exact { h with
      gone := fun ht => absurd (hgone.symm.trans ht) nofun
      freeing := fun _ => rfl }
  | sessionFree =>
    obtain ⟨hg, ⟨⟩⟩ := Option.ite_none_right_eq_some.mp hstep
    simp only [Bool.and_eq_true, Bool.or_eq_true, Bool.not_eq_true', decide_eq_true_eq] at hg
    exact h.sessionFree hg.1.1 hg.1.2
  | teardown => exact h.teardownStep hstep
  | startClient =>
    obtain ⟨hg, ⟨⟩⟩ := Option.ite_none_right_eq_some.mp hstep
    exact h.startClient hg
  | starting =>
    obtain ⟨hg, ⟨⟩⟩ := Option.ite_none_right_eq_some.mp hstep
    rw [(h.inside hg).1]
    exact h
  | startNet =>
    obtain ⟨hg, ⟨⟩⟩ := Option.ite_none_right_eq_some.mp hstep
    rw [Bool.and_eq_true, decide_eq_true_eq] at hg
    obtain ⟨hsame, hrank⟩ := h.inside hg.1
    rw [hsame]
    exact { h with net := fun _ => Nat.le_trans hrank (Nat.le_succ 4) }
  | startAudio =>
    obtain ⟨hg, ⟨⟩⟩ := Option.ite_none_right_eq_some.mp hstep
    rw [Bool.and_eq_true, decide_eq_true_eq] at hg
    obtain ⟨hsame, hrank⟩ := h.inside hg.1
    rw [hsame]
    exact { h with audio := fun _ => Nat.le_trans hrank (Nat.le_succ 4) }
  | started =>
    obtain ⟨hg, ⟨⟩⟩ := Option.ite_none_right_eq_some.mp hstep
    obtain ⟨hsame, hrank⟩ := h.inside hg
    rw [hsame]
    exact { h with starting := fun _ => hrank }
  | startEnd =>
    obtain ⟨hg, ⟨⟩⟩ := Option.ite_none_right_eq_some.mp hstep
    exact h.startEnd hg
  | frame resized unscheduled =>
    obtain ⟨hg, ⟨⟩⟩ := Option.ite_none_right_eq_some.mp hstep
    exact h.frame hg resized unscheduled
  | netEnd =>
    obtain ⟨hg, ⟨⟩⟩ := Option.ite_none_right_eq_some.mp hstep
    exact h.netEnd hg
  | sound =>
    obtain ⟨hg, ⟨⟩⟩ := Option.ite_none_right_eq_some.mp hstep
    rw [(h.sounding hg).1]
    exact h
  | hang =>
    obtain ⟨hg, ⟨⟩⟩ := Option.ite_none_right_eq_some.mp hstep
    obtain ⟨hsame, hrank⟩ := h.sounding hg
    rw [hsame]
    exact { h with audio := fun _ => hrank }
  | audioEnd =>
    obtain ⟨hg, ⟨⟩⟩ := Option.ite_none_right_eq_some.mp hstep
    rw [(h.sounding hg).1]
    exact { h with audio := fun hne => absurd rfl hne }

theorem Inv.run (h : s.Inv) {showFps : Bool} {acts : List SessionAct}
    (hrun : (sessionLts showFps).run s acts = some s') : s'.Inv :=
  Lts.invariant (fun _ _ _ hs hstep => hs.step hstep) h hrun

/-! ## A teardown ends -/

/-- What the teardown still has to do, and the threads it waits for. -/
def left (s : GtkSession) : Nat :=
  (8 - s.ui.rank) + s.starting.left + s.net.toNat + s.audio.left

theorem ui_of_torn (h : s.Inv) (htorn : s.torn = true) : 0 < s.ui.rank := by
  rw [h.torn] at htorn
  exact of_decide_eq_true htorn

theorem note_ui (s : GtkSession) (bad : Bool) (what : Dangling) :
    (s.note bad what).ui = s.ui ∧ (s.note bad what).starting = s.starting ∧
      (s.note bad what).net = s.net ∧ (s.note bad what).audio = s.audio := by
  rw [note]
  split <;> exact ⟨rfl, rfl, rfl, rfl⟩

theorem useClient_ui (s : GtkSession) :
    s.useClient.ui = s.ui ∧ s.useClient.starting = s.starting ∧ s.useClient.net = s.net ∧
      s.useClient.audio = s.audio := by
  obtain ⟨h1, h2, h3, h4⟩ := s.note_ui s.gone .session
  obtain ⟨h5, h6, h7, h8⟩ := s.deref.note_ui (!s.client || s.clientGone) .client
  exact ⟨h5.trans h1, h6.trans h2, h7.trans h3, h8.trans h4⟩

/-- A part of the teardown leads to the next. -/
theorem teardownStep_rank (hstep : s.teardownStep = some s') :
    s'.ui.rank = s.ui.rank + 1 ∧ s'.starting = s.starting ∧ s'.net = s.net ∧
      s'.audio = s.audio := by
  unfold GtkSession.teardownStep at hstep
  split at hstep
  · cases hstep
  · cases hstep
  · cases hstep
    split <;> simp [*, Teardown.rank, note_ui]
  · cases hstep
    split <;> simp [*, Teardown.rank, note_ui]
  · cases hstep
    split <;> simp [*, Teardown.rank, useClient_ui]
  · split at hstep
    · split at hstep
      · cases hstep
        simp [*, Teardown.rank]
      · cases hstep
    · cases hstep
      simp [*, Teardown.rank]
  · split at hstep
    · cases hstep
    · cases hstep
      simp [*, Teardown.rank, useClient_ui]
  · cases hstep
    simp [*, Teardown.rank, useClient_ui]
  · cases hstep
    rw [finish]
    split
    · simp [*, Teardown.rank, note_ui, deref]
    · simp [*, Teardown.rank]

theorem Inv.torn_of_step (h : s.Inv) (h' : s'.Inv) (htorn : s.torn = true)
    (hle : s.ui.rank ≤ s'.ui.rank) : s'.torn = true := by
  have hpos := ui_of_torn h htorn
  rw [h'.torn]
  exact decide_eq_true (by omega)

theorem Inv.progress_teardown (h : s.Inv) (htorn : s.torn = true) (hover : s.ui.rank < 8)
    (hstep : s.teardownStep = some s') : s'.Inv ∧ s'.torn = true ∧ s'.left < s.left := by
  obtain ⟨hrank, hstarting, hnet, haudio⟩ := teardownStep_rank hstep
  have h' := h.teardownStep hstep
  refine ⟨h', h.torn_of_step h' htorn (by omega), ?_⟩
  rw [left, left, hstarting, hnet, haudio]
  omega

/-- The teardown waits for `start_thread`, or for a thread of the core. -/
theorem teardownStep_none (hstep : s.teardownStep = none) (hlive : 0 < s.ui.rank)
    (hover : s.ui.rank < 8) : s.starting ≠ .done ∨ s.net = true ∨ s.audio ≠ .ended := by
  unfold GtkSession.teardownStep at hstep
  split at hstep
  · rename_i hui
    rw [hui] at hlive
    exact absurd hlive (Nat.lt_irrefl 0)
  · rename_i hui
    rw [hui] at hover
    exact absurd hover (Nat.lt_irrefl 8)
  · cases hstep
  · cases hstep
  · cases hstep
  · split at hstep
    · split at hstep
      · cases hstep
      · exact .inl ‹_›
    · cases hstep
  · split at hstep
    · rename_i hwait
      rw [Bool.or_eq_true, decide_eq_true_eq] at hwait
      exact .inr hwait
    · cases hstep
  · cases hstep
  · cases hstep

/-- A step of a thread changes its own state. -/
theorem Inv.progress_thread (h : s.Inv) (hfree : s.audio ≠ .stuck)
    (hwait : s.starting ≠ .done ∨ s.net = true ∨ s.audio ≠ .ended) :
    ∃ act s', SessionAct.ending act = true ∧ s.step act = some s' ∧ s'.ui = s.ui ∧
      s'.audio ≠ .stuck ∧ s'.left < s.left := by
  cases hstarting : s.starting with
  | created =>
    have hrank := h.starting (by rw [hstarting]; exact nofun)
    refine ⟨.startClient, _, rfl, if_pos hstarting, ?_⟩
    rw [h.useClient (by omega), left, left, hstarting]
    exact ⟨rfl, hfree, by simp only [Starting.left]; omega⟩
  | inside =>
    have hrank := h.starting (by rw [hstarting]; exact nofun)
    refine ⟨.started, _, rfl, if_pos hstarting, ?_⟩
    rw [h.insideClient (by omega), left, left, hstarting]
    exact ⟨rfl, hfree, by simp only [Starting.left]; omega⟩
  | returned =>
    have hrank := h.starting (by rw [hstarting]; exact nofun)
    refine ⟨.startEnd, _, rfl, if_pos hstarting, ?_⟩
    rw [deref_eq (h.gone_of_lt (by omega)), left, left, hstarting]
    exact ⟨rfl, hfree, by simp only [Starting.left]; omega⟩
  | done =>
    rcases hwait.resolve_left (fun hne => hne hstarting) with hnet | haudio
    · have hrank := h.net hnet
      refine ⟨.netEnd, _, rfl, if_pos hnet, ?_⟩
      rw [h.insideClient (by omega), left, left, hnet]
      exact ⟨rfl, hfree, by simp only [Bool.toNat_true, Bool.toNat_false]; omega⟩
    · have hrunning : s.audio = .running := by
        cases hs : s.audio with
        | ended => exact absurd hs haudio
        | running => rfl
        | stuck => exact absurd hs hfree
      refine ⟨.audioEnd, _, rfl, if_pos hrunning, ?_⟩
      rw [(h.sounding hrunning).1, left, left, hrunning]
      exact ⟨rfl, nofun, by simp only [Sounding.left]; omega⟩

/-- The teardown takes its next part, or the thread it waits for takes a step. -/
theorem Inv.progress (h : s.Inv) (htorn : s.torn = true) (hfree : s.audio ≠ .stuck)
    (hover : s.ui ≠ .over) :
    ∃ act s', SessionAct.ending act = true ∧ s.step act = some s' ∧
      (s'.Inv ∧ s'.torn = true ∧ s'.audio ≠ .stuck) ∧ s'.left < s.left := by
  have hlt : s.ui.rank < 8 := by
    cases hui : s.ui <;> first | exact absurd hui hover | decide
  cases hnext : s.teardownStep with
  | some t =>
    obtain ⟨h', htorn', hless⟩ := h.progress_teardown htorn hlt hnext
    have haudio := (teardownStep_rank hnext).2.2.2
    exact ⟨.teardown, t, rfl, hnext, ⟨h', htorn', haudio ▸ hfree⟩, hless⟩
  | none =>
    obtain ⟨act, t, hact, hstep, hui, hfree', hless⟩ :=
      h.progress_thread hfree (teardownStep_none hnext (ui_of_torn h htorn) hlt)
    have h' := h.step hstep
    have hrank := Nat.le_of_eq (congrArg Teardown.rank hui.symm)
    exact ⟨act, t, hact, hstep, ⟨h', h.torn_of_step h' htorn hrank, hfree'⟩, hless⟩

/-! ## The whole session -/

theorem Inv.teardown_ends (h : s.Inv) (htorn : s.torn = true) (hfree : s.audio ≠ .stuck)
    (showFps : Bool) :
    ∃ acts s', (sessionLts showFps).run s acts = some s' ∧ s'.Inv ∧ s'.ui = .over ∧
      (∀ act ∈ acts, act.ending = true) ∧ acts.length ≤ 12 := by
  obtain ⟨acts, s', hrun, h', hover, hacts, hlen⟩ :=
    Lts.leads_to (L := sessionLts showFps)
      (I := fun s => s.Inv ∧ s.torn = true ∧ s.audio ≠ .stuck)
      (Q := fun s => s.ui = .over) (P := fun act => act.ending = true) left
      (fun s hs hover => hs.1.progress hs.2.1 hs.2.2 hover) ⟨h, htorn, hfree⟩
  refine ⟨acts, s', hrun, h'.1, hover, hacts, Nat.le_trans hlen ?_⟩
  have hpos := ui_of_torn h htorn
  have hstarting : s.starting.left ≤ 3 := by cases s.starting <;> decide
  have hnet := Bool.toNat_le s.net
  have haudio : s.audio.left ≤ 1 := by cases s.audio <;> decide
  rw [left]
  omega

/-! ### A write that never ends -/

@[simp] theorem note_audio (s : GtkSession) (bad : Bool) (what : Dangling) :
    (s.note bad what).audio = s.audio :=
  (s.note_ui bad what).2.2.2

@[simp] theorem deref_audio (s : GtkSession) : s.deref.audio = s.audio := s.note_audio ..

@[simp] theorem useClient_audio (s : GtkSession) : s.useClient.audio = s.audio := s.useClient_ui.2.2.2

@[simp] theorem insideClient_audio (s : GtkSession) : s.insideClient.audio = s.audio :=
  s.note_audio ..

theorem tear_audio (s : GtkSession) : s.tear.audio = s.audio := by
  rw [tear]
  split
  · exact s.deref_audio
  · exact s.deref_audio

theorem sessionFree_audio (s : GtkSession) : s.sessionFree.audio = s.audio := by
  rw [sessionFree]
  split
  · rw [finish]
    split
    · exact (deref_audio _).trans s.tear_audio
    · exact s.tear_audio
  · exact s.tear_audio

/-- The callbacks know nothing of the threads. -/
theorem callback_audio (s : GtkSession) (known : Bool) :
    s.fpsTick.audio = s.audio ∧ (s.titleTick known).audio = s.audio ∧
      s.triggerRender.audio = s.audio ∧ s.resizeToVideo.audio = s.audio := by
  refine ⟨?_, ?_, ?_, ?_⟩
  · rw [fpsTick]
    split <;> simp [setTitle, apply_ite GtkSession.audio]
  · rw [titleTick]
    split <;> simp [setTitle, apply_ite GtkSession.audio]
  · rw [triggerRender]
    simp [apply_ite GtkSession.audio]
  · rw [resizeToVideo]
    simp [apply_ite GtkSession.audio]

theorem stuck_step (hstuck : s.audio = .stuck) {act : SessionAct} (hstep : s.step act = some s') :
    s'.audio = .stuck := by
  have hnot : s.audio ≠ .running ∧ s.audio ≠ .ended := by simp [hstuck]
  cases act with
  | teardown => rw [(teardownStep_rank hstep).2.2.2, hstuck]
  | startAudio =>
    obtain ⟨hg, -⟩ := Option.ite_none_right_eq_some.mp hstep
    rw [Bool.and_eq_true, decide_eq_true_eq, decide_eq_true_eq] at hg
    exact absurd hg.2 hnot.2
  | sound => exact absurd (Option.ite_none_right_eq_some.mp hstep).1 hnot.1
  | hang => exact absurd (Option.ite_none_right_eq_some.mp hstep).1 hnot.1
  | audioEnd => exact absurd (Option.ite_none_right_eq_some.mp hstep).1 hnot.1
  | fpsTick =>
    obtain ⟨-, ⟨⟩⟩ := Option.ite_none_right_eq_some.mp hstep
    rw [(s.callback_audio false).1, hstuck]
  | titleTick known =>
    obtain ⟨-, ⟨⟩⟩ := Option.ite_none_right_eq_some.mp hstep
    rw [(s.callback_audio known).2.1, hstuck]
  | triggerRender =>
    obtain ⟨-, ⟨⟩⟩ := Option.ite_none_right_eq_some.mp hstep
    rw [(s.callback_audio false).2.2.1, hstuck]
  | resizeToVideo =>
    obtain ⟨-, ⟨⟩⟩ := Option.ite_none_right_eq_some.mp hstep
    rw [(s.callback_audio false).2.2.2, hstuck]
  | sessionFree =>
    obtain ⟨-, ⟨⟩⟩ := Option.ite_none_right_eq_some.mp hstep
    rw [s.sessionFree_audio, hstuck]
  | close =>
    obtain ⟨-, ⟨⟩⟩ := Option.ite_none_right_eq_some.mp hstep
    exact s.tear_audio.trans hstuck
  | frame resized unscheduled =>
    obtain ⟨-, ⟨⟩⟩ := Option.ite_none_right_eq_some.mp hstep
    simp [frame, hstuck]
  | quit | startClient | starting | startNet | started | startEnd | netEnd =>
    obtain ⟨-, ⟨⟩⟩ := Option.ite_none_right_eq_some.mp hstep
    simp [hstuck]

/-- `rc_client_stop` waits for the audio thread as long as it is in its write. -/
theorem Inv.stuck_run (h : s.Inv) (hstuck : s.audio = .stuck) {showFps : Bool}
    {more : List SessionAct} (hrun : (sessionLts showFps).run s more = some s') :
    s'.ui ≠ .over ∧ s'.stops = 0 := by
  have h' := h.run hrun
  have hstuck' : s'.audio = .stuck :=
    Lts.invariant (I := fun s : GtkSession => s.audio = .stuck)
      (fun _ _ _ hs hstep => stuck_step hs hstep) hstuck hrun
  have hrank := h'.audio (by rw [hstuck']; exact nofun)
  refine ⟨fun hover => ?_, ?_⟩
  · rw [hover] at hrank
    exact absurd hrank (by decide)
  · rw [h'.stops, if_neg (by omega)]

/-- At the end of a teardown. -/
theorem Inv.at_over (h : s.Inv) (hover : s.ui = .over) :
    s.stops = 1 ∧ s.destroys = 1 ∧ s.client = false ∧ s.fpsSource = false ∧
      s.titleSource = false ∧ s.starting = .done ∧ s.net = false ∧ s.audio = .ended := by
  have hrank : s.ui.rank = 8 := by rw [hover]; rfl
  obtain ⟨-, hclient, -, -, -, hstops, hdestroys⟩ := h.at_rank hrank
  refine ⟨hstops, hdestroys, hclient, ?_, ?_, ?_, ?_, ?_⟩
  · rw [h.fps]
    exact Bool.eq_false_iff.mpr fun ht => absurd (h.fpsTimer ht) (by omega)
  · rw [h.title]
    exact Bool.eq_false_iff.mpr fun ht => absurd (h.titleTimer ht) (by omega)
  · by_contra hne
    exact absurd (h.starting hne) (by omega)
  · exact Bool.eq_false_iff.mpr fun ht => absurd (h.net ht) (by omega)
  · by_contra hne
    exact absurd (h.audio hne) (by omega)

/-- A window with sound that is closed while `rc_client_start` runs. -/
def closedEarly : List SessionAct :=
  [.startClient, .titleTick false, .startNet, .startAudio, .frame true true, .fpsTick,
    .triggerRender, .sound, .close, .teardown, .frame false true, .teardown, .teardown, .started,
    .startEnd, .teardown, .netEnd, .sound, .audioEnd, .teardown, .teardown, .teardown,
    .resizeToVideo, .quit, .sessionFree]

end GtkSession

end RigControl.Gtk
