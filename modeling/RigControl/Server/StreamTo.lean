import RigControl.Lib.Ledger
import RigControl.Server.EncodeLoop
import RigControl.Server.Options
import RigControl.Server.VideoSize

/-!
# Encoders one after the other

`streamTo` of `ScreenEncoder`: a codec, its input surface and a virtual display are made
for the size that `configure` has read, `encodeLoop` runs, and a `finally` gives back what
there is. Behind a rotation `configure` reads the size again, and the next encoder
writes to the same socket. Every call into Android can throw.

`createVirtualDisplay` makes the display and then sets it up in a transaction. If that
throws, the caller has not got the display yet, and its `finally` does not destroy it:
`StreamTo.lost`.
-/

namespace RigControl.Server

open RigControl.Lib

/-! ## The format of an encoder -/

/-- `MIMETYPE_VIDEO_AVC`, `_HEVC` and `_AV1`. -/
inductive Mime where
  | avc | hevc | av1
  deriving DecidableEq, Repr

def ServerOptions.mime (o : ServerOptions) : Mime :=
  if o.codec = "h265".toList then .hevc else if o.codec = "av1".toList then .av1 else .avc

/-- The keys of a `MediaFormat` whose values are not the same for all encoders. -/
structure MediaFormat where
  mime : Mime
  width : Int32
  height : Int32
  bitRate : Int
  frameRate : Int
  highProfile : Bool
  deriving DecidableEq, Repr

def createFormat (o : ServerOptions) (size : EncoderSize) : MediaFormat where
  mime := o.mime
  width := size.encWidth
  height := size.encHeight
  bitRate := o.bitRate
  frameRate := if 0 < o.maxFps then o.maxFps else 60
  highProfile := false

/-- `high`: the capabilities of the codec could be read, and have the profile. -/
def applyH264HighProfile (o : ServerOptions) (high : Bool) (format : MediaFormat) : MediaFormat :=
  if o.mime ≠ .avc then format
  else if high then { format with highProfile := true }
  else format

/-! ## The turns of the loop -/

/-- What an encoder takes: a codec with its format, a surface, and a display that shows
the whole device at the size of the video. -/
inductive Gear where
  | codec (format : MediaFormat)
  | surface
  | display (size : EncoderSize)
  deriving DecidableEq, Repr

/-- Where a turn is: before each of the calls that make an encoder, in the loop, in the
`finally` with what the loop has returned (none: an exception is under way), before
`configure`; or `streamTo` has returned or thrown. -/
inductive StreamStage where
  | create
  | configure
  | surface
  | display
  | transaction (id : Nat)
  | project (id : Nat)
  | start
  | encoding (loop : EncodeLoop)
  | cleanUp (rotated : Option Bool)
  | reconfigure
  | ended (ok : Bool)

/-- How `streamTo` has ended. -/
def StreamStage.outcome : StreamStage → Option Bool
  | .ended ok => some ok
  | _ => none

/-- `createVirtualDisplay` has made a display and not returned it. -/
def StreamStage.made : StreamStage → List Nat
  | .transaction id | .project id => [id]
  | _ => []

/-- Before a call that can throw and, when it does, has made nothing. -/
def StreamStage.plain : StreamStage → Bool
  | .configure | .surface | .display | .start => true
  | _ => false

structure StreamTo where
  stage : StreamStage
  size : EncoderSize
  codec : Option Nat
  surface : Option Nat
  display : Option Nat
  ledger : Ledger Gear
  lost : List Nat
  transactions : Nat
  /-- The loops that have ended, each with the size of its encoder. -/
  past : List (EncoderSize × EncodeLoop)
  /-- What the socket has taken of a packet whose write has thrown. -/
  torn : List UInt8

inductive StreamAct where
  | createEncoderByType (ok high : Bool)
  | configure (ok : Bool)
  | createInputSurface (ok : Bool)
  | createDisplay (ok : Bool)
  | openTransaction (ok : Bool)
  /-- `setDisplaySurface`, `setDisplayProjection`, `setDisplayLayerStack`. -/
  | setDisplay (ok : Bool)
  /-- `codec.start`, and the size of the display when the loop begins. -/
  | start (ok : Bool) (display : Int × Int)
  | encode (a : EncodeAct)
  /-- `dequeueOutputBuffer` throws. -/
  | dequeueThrows
  /-- `encodeLoop` returns, or throws behind `taken` bytes of a packet. -/
  | leave (taken : Nat)
  | cleanUp
  /-- `configure`, with what `getDisplayInfo` returns. -/
  | reconfigure (info : Option DisplayInfo)
  deriving DecidableEq

/-- The size of the display that `configure` has read. -/
def EncoderSize.device (size : EncoderSize) : Int × Int :=
  (size.deviceWidth.toInt, size.deviceHeight.toInt)

namespace StreamTo

def init (size : EncoderSize) : StreamTo :=
  { stage := .create, size, codec := none, surface := none, display := none, ledger := .empty,
    lost := [], transactions := 0, past := [], torn := [] }

/-- What the `finally` finds, in its order. -/
def own (s : StreamTo) : List Nat := s.display.toList ++ (s.codec.toList ++ s.surface.toList)

/-- The `finally`, and where `streamTo` goes on behind it. -/
def cleanUp (s : StreamTo) (rotated : Option Bool) : StreamTo :=
  { s with
    stage := match rotated with
      | none => .ended false
      | some true => .reconfigure
      | some false => .ended true
    codec := none
    surface := none
    display := none
    ledger := s.own.foldl Ledger.release s.ledger }

/-- The end of a loop, and what it has thrown or returned. -/
def leave (s : StreamTo) (loop : EncodeLoop) (taken : Nat) : Option StreamTo :=
  match loop.place with
  | .returned rotated _ =>
    some { s with stage := .cleanUp (some rotated), past := s.past ++ [(s.size, loop)] }
  | .threw b =>
    some { s with
      stage := .cleanUp none, past := s.past ++ [(s.size, loop)], torn := b.wire.take taken }
  | _ => none

def step (o : ServerOptions) (s : StreamTo) : StreamAct → Option StreamTo
  | .createEncoderByType ok high =>
    match s.stage with
    | .create =>
      let format := applyH264HighProfile o high (createFormat o s.size)
      some (if ok then { s with stage := .configure, codec := some s.ledger.next,
                                ledger := s.ledger.acquire (.codec format) }
        else { s with stage := .ended false })
    | _ => none
  | .configure ok =>
    match s.stage with
    | .configure => some { s with stage := if ok then .surface else .cleanUp none }
    | _ => none
  | .createInputSurface ok =>
    match s.stage with
    | .surface =>
      some (if ok then { s with stage := .display, surface := some s.ledger.next,
                                ledger := s.ledger.acquire .surface }
        else { s with stage := .cleanUp none })
    | _ => none
  | .createDisplay ok =>
    match s.stage with
    | .display =>
      some (if ok then { s with stage := .transaction s.ledger.next,
                                ledger := s.ledger.acquire (.display s.size) }
        else { s with stage := .cleanUp none })
    | _ => none
  | .openTransaction ok =>
    match s.stage with
    | .transaction id =>
      some (if ok then { s with stage := .project id, transactions := s.transactions + 1 }
        else { s with stage := .cleanUp none, lost := s.lost ++ [id] })
    | _ => none
  | .setDisplay ok =>
    match s.stage with
    | .project id =>
      -- `closeTransaction` either way
      let s := { s with transactions := s.transactions - 1 }
      some (if ok then { s with stage := .start, display := some id }
        else { s with stage := .cleanUp none, lost := s.lost ++ [id] })
    | _ => none
  | .start ok display =>
    match s.stage with
    | .start => some { s with stage := if ok then .encoding (.init display) else .cleanUp none }
    | _ => none
  | .encode a =>
    match s.stage with
    | .encoding loop => (loop.step s.size.device a).map fun loop => { s with stage := .encoding loop }
    | _ => none
  | .dequeueThrows =>
    match s.stage with
    | .encoding loop =>
      if loop.place = .top then
        some { s with stage := .cleanUp none, past := s.past ++ [(s.size, loop)] }
      else none
    | _ => none
  | .leave taken =>
    match s.stage with
    | .encoding loop => s.leave loop taken
    | _ => none
  | .cleanUp =>
    match s.stage with
    | .cleanUp rotated => some (s.cleanUp rotated)
    | _ => none
  | .reconfigure info =>
    match s.stage with
    | .reconfigure =>
      match Server.configure info (Int32.ofInt o.maxSize) with
      | some size => some { s with stage := .create, size }
      | none => some { s with stage := .ended false }
    | _ => none

end StreamTo

/-- `streamTo` of an encoder that `configure` has given the size `size`. -/
def streamLts (o : ServerOptions) (size : EncoderSize) : Lts StreamTo StreamAct :=
  { init := .init size, step := StreamTo.step o }

namespace StreamTo

variable {o : ServerOptions} {s s' : StreamTo}

/-! ## What an act does -/

/-- The format the codec is configured with. -/
def format (o : ServerOptions) (high : Bool) (size : EncoderSize) : MediaFormat :=
  applyH264HighProfile o high (createFormat o size)

/-- The steps, each from the stage in which `streamTo` takes it. -/
inductive Moves (o : ServerOptions) (s : StreamTo) : StreamTo → Prop where
  | noEncoder (hstage : s.stage = .create) : Moves o s { s with stage := .ended false }
  | encoder (high : Bool) (hstage : s.stage = .create) :
      Moves o s { s with
        stage := .configure, codec := some s.ledger.next,
        ledger := s.ledger.acquire (.codec (format o high s.size)) }
  | configured (hstage : s.stage = .configure) : Moves o s { s with stage := .surface }
  | surface (hstage : s.stage = .surface) :
      Moves o s { s with
        stage := .display, surface := some s.ledger.next, ledger := s.ledger.acquire .surface }
  | display (hstage : s.stage = .display) :
      Moves o s { s with
        stage := .transaction s.ledger.next, ledger := s.ledger.acquire (.display s.size) }
  | opened (id : Nat) (hstage : s.stage = .transaction id) :
      Moves o s { s with stage := .project id, transactions := s.transactions + 1 }
  | unopened (id : Nat) (hstage : s.stage = .transaction id) :
      Moves o s { s with stage := .cleanUp none, lost := s.lost ++ [id] }
  | projected (id : Nat) (hstage : s.stage = .project id) :
      Moves o s { s with
        stage := .start, display := some id, transactions := s.transactions - 1 }
  | unprojected (id : Nat) (hstage : s.stage = .project id) :
      Moves o s { s with
        stage := .cleanUp none, lost := s.lost ++ [id], transactions := s.transactions - 1 }
  | started (display : Int × Int) (hstage : s.stage = .start) :
      Moves o s { s with stage := .encoding (.init display) }
  | throws (hstage : s.stage.plain = true) : Moves o s { s with stage := .cleanUp none }
  | encode (a : EncodeAct) (loop loop' : EncodeLoop) (hstage : s.stage = .encoding loop)
      (hloop : loop.step s.size.device a = some loop') :
      Moves o s { s with stage := .encoding loop' }
  | dequeueThrows (loop : EncodeLoop) (hstage : s.stage = .encoding loop)
      (htop : loop.place = .top) :
      Moves o s { s with stage := .cleanUp none, past := s.past ++ [(s.size, loop)] }
  | returns (loop : EncodeLoop) (rotated : Bool) (discarded : Option OutputBuffer)
      (hstage : s.stage = .encoding loop) (hplace : loop.place = .returned rotated discarded) :
      Moves o s { s with stage := .cleanUp (some rotated), past := s.past ++ [(s.size, loop)] }
  | tears (loop : EncodeLoop) (b : OutputBuffer) (taken : Nat) (hstage : s.stage = .encoding loop)
      (hplace : loop.place = .threw b) :
      Moves o s { s with
        stage := .cleanUp none, past := s.past ++ [(s.size, loop)], torn := b.wire.take taken }
  | cleanUp (rotated : Option Bool) (hstage : s.stage = .cleanUp rotated) :
      Moves o s (s.cleanUp rotated)
  | reconfigure (size : EncoderSize) (info : Option DisplayInfo) (hstage : s.stage = .reconfigure)
      (hsize : Server.configure info (Int32.ofInt o.maxSize) = some size) :
      Moves o s { s with stage := .create, size := size }
  | noDisplay (hstage : s.stage = .reconfigure) : Moves o s { s with stage := .ended false }

theorem moves_of_step {a : StreamAct} (hs : step o s a = some s') : Moves o s s' := by
  cases a with
  | createEncoderByType ok high =>
    simp only [step] at hs
    split at hs
    · cases ok <;> cases hs
      · exact .noEncoder ‹_›
      · exact .encoder high ‹_›
    · cases hs
  | configure ok =>
    simp only [step] at hs
    split at hs
    · rename_i hstage
      cases ok <;> cases hs
      · exact .throws (by rw [hstage]; rfl)
      · exact .configured hstage
    · cases hs
  | createInputSurface ok =>
    simp only [step] at hs
    split at hs
    · rename_i hstage
      cases ok <;> cases hs
      · exact .throws (by rw [hstage]; rfl)
      · exact .surface hstage
    · cases hs
  | createDisplay ok =>
    simp only [step] at hs
    split at hs
    · rename_i hstage
      cases ok <;> cases hs
      · exact .throws (by rw [hstage]; rfl)
      · exact .display hstage
    · cases hs
  | openTransaction ok =>
    simp only [step] at hs
    split at hs
    · cases ok <;> cases hs
      · exact .unopened _ ‹_›
      · exact .opened _ ‹_›
    · cases hs
  | setDisplay ok =>
    simp only [step] at hs
    split at hs
    · cases ok <;> cases hs
      · exact .unprojected _ ‹_›
      · exact .projected _ ‹_›
    · cases hs
  | start ok display =>
    simp only [step] at hs
    split at hs
    · rename_i hstage
      cases ok <;> cases hs
      · exact .throws (by rw [hstage]; rfl)
      · exact .started display hstage
    · cases hs
  | encode a =>
    simp only [step] at hs
    split at hs
    · obtain ⟨loop', hloop, rfl⟩ := Option.map_eq_some_iff.mp hs
      exact .encode a _ loop' ‹_› hloop
    · cases hs
  | dequeueThrows =>
    simp only [step] at hs
    split at hs
    · split at hs
      · cases hs
        exact .dequeueThrows _ ‹_› ‹_›
      · cases hs
    · cases hs
  | leave taken =>
    simp only [step] at hs
    split at hs
    · unfold StreamTo.leave at hs
      split at hs
      · cases hs
        exact .returns _ _ _ ‹_› ‹_›
      · cases hs
        exact .tears _ _ taken ‹_› ‹_›
      · cases hs
    · cases hs
  | cleanUp =>
    simp only [step] at hs
    split at hs
    · cases hs
      exact .cleanUp _ ‹_›
    · cases hs
  | reconfigure info =>
    simp only [step] at hs
    split at hs
    · split at hs
      · cases hs
        exact .reconfigure _ info ‹_› ‹_›
      · cases hs
        exact .noDisplay ‹_›
    · cases hs

/-! ## What it holds -/

end StreamTo

/-- The variables that a turn has not set yet, or that its `finally` has given back. -/
def StreamStage.Vacant (codec surface display : Option Nat) : StreamStage → Prop
  | .create | .reconfigure | .ended _ => codec = none ∧ surface = none ∧ display = none
  | .configure | .surface => surface = none ∧ display = none
  | .display | .transaction _ | .project _ => display = none
  | _ => True

/-- Behind an exception. -/
def StreamStage.failed : StreamStage → Bool
  | .cleanUp none | .ended false => true
  | _ => false

/-- The transactions that are open. -/
def StreamStage.transactions : StreamStage → Nat
  | .project _ => 1
  | _ => 0

namespace StreamTo

variable {o : ServerOptions} {s s' : StreamTo}

/-- All that was made and not given back. -/
def held (s : StreamTo) : List Nat := s.lost ++ (s.stage.made ++ s.own)

/-- What is held has its variable, or is the display that was lost: one at most, to an
exception that ends `streamTo`. -/
structure Kept (s : StreamTo) : Prop where
  holds : s.ledger.Holds s.held
  vacant : s.stage.Vacant s.codec s.surface s.display
  lost : s.stage.failed = false → s.lost = []
  once : s.lost.length ≤ 1
  transactions : s.transactions = s.stage.transactions

theorem kept_init (size : EncoderSize) : (init size).Kept :=
  ⟨Ledger.holds_empty, ⟨rfl, rfl, rfl⟩, fun _ => rfl, Nat.zero_le _, rfl⟩

/-- A step that makes nothing and gives nothing back. -/
theorem Kept.move (h : s.Kept) {old stage : StreamStage} (hstage : s.stage = old)
    (hmade : stage.made = old.made)
    (hvacant : old.Vacant s.codec s.surface s.display →
      stage.Vacant s.codec s.surface s.display)
    (hlost : stage.failed = false → old.failed = false)
    (htransactions : stage.transactions = old.transactions) : Kept { s with stage := stage } where
  holds := by
    have hholds := h.holds
    rw [held, hstage, ← hmade] at hholds
    exact hholds
  vacant := hvacant (hstage ▸ h.vacant)
  lost := fun hfailed => h.lost (hstage ▸ hlost hfailed)
  once := h.once
  transactions := by rw [htransactions, ← hstage]; exact h.transactions

theorem Kept.history (h : s.Kept) (past : List (EncoderSize × EncodeLoop)) (torn : List UInt8) :
    Kept { s with past := past, torn := torn } :=
  ⟨h.holds, h.vacant, h.lost, h.once, h.transactions⟩

theorem Kept.throws (h : s.Kept) (hstage : s.stage.plain = true) :
    Kept { s with stage := .cleanUp none } := by
  cases hs : s.stage with
  | configure | surface | display | start =>
    exact h.move hs rfl (fun _ => trivial) (fun _ => rfl) rfl
  | _ =>
    rw [hs] at hstage
    cases hstage

/-- What a loop leaves to the `finally`. -/
theorem Kept.leave (h : s.Kept) {loop : EncodeLoop} (hstage : s.stage = .encoding loop)
    (rotated : Option Bool) : Kept { s with stage := .cleanUp rotated } :=
  h.move hstage (by cases rotated <;> rfl) (fun _ => trivial) (fun _ => rfl)
    (by cases rotated <;> rfl)

/-- A display that `createVirtualDisplay` has made and does not return. -/
theorem Kept.lose (h : s.Kept) {id : Nat} (hmade : s.stage.made = [id])
    (hfailed : s.stage.failed = false) :
    Kept { s with stage := .cleanUp none, lost := s.lost ++ [id], transactions := 0 } where
  holds := by
    have hholds := h.holds
    rw [held, hmade] at hholds
    show s.ledger.Holds ((s.lost ++ [id]) ++ s.own)
    rwa [List.append_assoc]
  vacant := trivial
  lost := nofun
  once := by
    show (s.lost ++ [id]).length ≤ 1
    rw [h.lost hfailed]
    exact Nat.le_refl 1
  transactions := rfl

theorem holds_foldl {l : Ledger Gear} {ids rest : List Nat} (h : l.Holds (ids ++ rest)) :
    (ids.foldl Ledger.release l).Holds rest := by
  induction ids generalizing l with
  | nil => exact h
  | cons id ids ih => exact ih h.release

/-- The `finally` leaves what was lost. -/
theorem Kept.cleanUp (h : s.Kept) {rotated : Option Bool} (hstage : s.stage = .cleanUp rotated) :
    (s.cleanUp rotated).Kept where
  holds := by
    have hholds := h.holds
    rw [held, hstage] at hholds
    have hmade : (s.cleanUp rotated).stage.made = [] := by
      rcases rotated with _ | _ | _ <;> rfl
    have hheld : (s.cleanUp rotated).held = s.lost := by
      rw [held, hmade]
      exact List.append_nil _
    rw [hheld]
    exact holds_foldl (hholds.perm List.perm_append_comm)
  vacant := by rcases rotated with _ | _ | _ <;> exact ⟨rfl, rfl, rfl⟩
  lost := by
    have hlost := h.lost
    rw [hstage] at hlost
    rcases rotated with _ | _ | _
    · nofun
    · exact fun _ => hlost rfl
    · exact fun _ => hlost rfl
  once := h.once
  transactions := by
    have htransactions := h.transactions
    rw [hstage] at htransactions
    rcases rotated with _ | _ | _ <;> exact htransactions

theorem Kept.encoder (h : s.Kept) (hstage : s.stage = .create) (format : MediaFormat) :
    Kept { s with
      stage := .configure, codec := some s.ledger.next,
      ledger := s.ledger.acquire (.codec format) } := by
  obtain ⟨hholds, hvacant, hlost, honce, htransactions⟩ := h
  rw [hstage] at hvacant hlost htransactions
  have hheld : s.held = [] := by
    simp [held, own, hstage, hlost rfl, StreamStage.made, hvacant.1, hvacant.2.1, hvacant.2.2]
  rw [hheld] at hholds
  refine ⟨?_, hvacant.2, fun _ => hlost rfl, honce, htransactions⟩
  simpa [held, own, hlost rfl, StreamStage.made, hvacant.2.1, hvacant.2.2] using hholds.acquire _

theorem Kept.surface (h : s.Kept) (hstage : s.stage = .surface) :
    Kept { s with
      stage := .display, surface := some s.ledger.next, ledger := s.ledger.acquire .surface } := by
  obtain ⟨hholds, hvacant, hlost, honce, htransactions⟩ := h
  rw [hstage] at hvacant hlost htransactions
  have hheld : s.held = s.codec.toList := by
    simp [held, own, hstage, hlost rfl, StreamStage.made, hvacant.1, hvacant.2]
  rw [hheld] at hholds
  refine ⟨?_, hvacant.2, fun _ => hlost rfl, honce, htransactions⟩
  have hperm := (hholds.acquire .surface).perm (List.perm_append_singleton _ _).symm
  simpa [held, own, hlost rfl, StreamStage.made, hvacant.2] using hperm

theorem Kept.display (h : s.Kept) (hstage : s.stage = .display) :
    Kept { s with
      stage := .transaction s.ledger.next, ledger := s.ledger.acquire (.display s.size) } := by
  obtain ⟨hholds, hvacant, hlost, honce, htransactions⟩ := h
  rw [hstage] at hvacant hlost htransactions
  have hheld : s.held = s.own := by
    simp [held, hstage, hlost rfl, StreamStage.made]
  rw [hheld] at hholds
  refine ⟨?_, hvacant, fun _ => hlost rfl, honce, htransactions⟩
  show (s.ledger.acquire _).Holds (s.lost ++ ([s.ledger.next] ++ s.own))
  rw [hlost rfl]
  exact hholds.acquire _

/-- `createVirtualDisplay` returns. -/
theorem Kept.projected (h : s.Kept) {id : Nat} (hstage : s.stage = .project id) :
    Kept { s with
      stage := .start, display := some id, transactions := s.transactions - 1 } := by
  obtain ⟨hholds, hvacant, hlost, honce, htransactions⟩ := h
  rw [hstage] at hvacant hlost htransactions
  refine ⟨?_, trivial, fun _ => hlost rfl, honce, by rw [htransactions]; rfl⟩
  rw [held, own, hstage, show s.display = none from hvacant] at hholds
  exact hholds

theorem Kept.step {a : StreamAct} (h : s.Kept) (hs : step o s a = some s') : s'.Kept := by
  have htransactions := h.transactions
  cases moves_of_step hs with
  | noEncoder hstage => exact h.move hstage rfl id nofun rfl
  | encoder high hstage => exact h.encoder hstage _
  | configured hstage => exact h.move hstage rfl id (fun _ => rfl) rfl
  | surface hstage => exact h.surface hstage
  | display hstage => exact h.display hstage
  | opened id hstage =>
    rw [hstage] at htransactions
    rw [show s.transactions = 0 from htransactions]
    obtain ⟨hholds, hvacant, hlost, honce, -⟩ := h
    rw [held, hstage] at hholds
    rw [hstage] at hvacant hlost
    exact ⟨hholds, hvacant, fun _ => hlost rfl, honce, rfl⟩
  | unopened id hstage =>
    rw [hstage] at htransactions
    have hmade : s.stage.made = [id] := by rw [hstage]; rfl
    have hlose := h.lose hmade (by rw [hstage]; rfl)
    rwa [← show s.transactions = 0 from htransactions] at hlose
  | projected id hstage => exact h.projected hstage
  | unprojected id hstage =>
    rw [hstage] at htransactions
    rw [show s.transactions = 1 from htransactions]
    exact h.lose (by rw [hstage]; rfl) (by rw [hstage]; rfl)
  | started display hstage => exact h.move hstage rfl id (fun _ => rfl) rfl
  | throws hstage => exact h.throws hstage
  | encode a loop loop' hstage => exact h.move hstage rfl id (fun _ => rfl) rfl
  | dequeueThrows loop hstage => exact (h.leave hstage none).history _ s.torn
  | returns loop rotated discarded hstage => exact (h.leave hstage (some rotated)).history _ s.torn
  | tears loop b taken hstage => exact (h.leave hstage none).history _ _
  | cleanUp rotated hstage => exact h.cleanUp hstage
  | reconfigure size info hstage =>
    obtain ⟨hholds, hvacant, hlost, honce, -⟩ := h
    rw [held, hstage] at hholds
    rw [hstage] at hvacant hlost htransactions
    exact ⟨hholds, hvacant, fun _ => hlost rfl, honce, htransactions⟩
  | noDisplay hstage => exact h.move hstage rfl id nofun rfl

/-! ## What it is made for -/

/-- The displays that `createVirtualDisplay` has made and that were not destroyed. -/
def displays (s : StreamTo) : List Nat := s.lost ++ (s.stage.made ++ s.display.toList)

/-- What is held is of its kind, and for the size that was read last. -/
structure Fitted (o : ServerOptions) (s : StreamTo) : Prop where
  codec : ∀ id, s.codec = some id →
    ∃ high, s.ledger.made[id]? = some (.codec (format o high s.size))
  surface : ∀ id, s.surface = some id → s.ledger.made[id]? = some .surface
  display : ∀ id ∈ s.displays, s.ledger.made[id]? = some (.display s.size)

theorem fitted_init (size : EncoderSize) : (init size).Fitted o :=
  ⟨nofun, nofun, nofun⟩

/-- A step that makes nothing; a display may go from hand to hand. -/
theorem Fitted.move (h : s.Fitted o) (hcodec : s'.codec = s.codec)
    (hsurface : s'.surface = s.surface) (hdisplays : s'.displays = s.displays)
    (hledger : s'.ledger = s.ledger) (hsize : s'.size = s.size) : s'.Fitted o := by
  refine ⟨?_, ?_, ?_⟩
  · rw [hcodec, hledger, hsize]
    exact h.codec
  · rw [hsurface, hledger]
    exact h.surface
  · rw [hdisplays, hledger, hsize]
    exact h.display

/-- A step that moves on. -/
theorem Fitted.stay (h : s.Fitted o) {old stage : StreamStage} {transactions : Nat}
    {past : List (EncoderSize × EncodeLoop)} {torn : List UInt8} (hstage : s.stage = old)
    (hmade : stage.made = old.made) :
    Fitted o { s with
      stage := stage, transactions := transactions, past := past, torn := torn } := by
  refine h.move rfl rfl ?_ rfl rfl
  rw [displays, displays, hstage, hmade]

theorem made_of_plain {stage : StreamStage} (h : stage.plain = true) : stage.made = [] := by
  cases stage with
  | configure | surface | display | start => rfl
  | _ => cases h

/-- Where nothing is held. -/
theorem fitted_of_vacant (hcodec : s.codec = none) (hsurface : s.surface = none)
    (hdisplays : s.displays = []) : s.Fitted o := by
  refine ⟨?_, ?_, ?_⟩
  · rw [hcodec]
    nofun
  · rw [hsurface]
    nofun
  · rw [hdisplays]
    nofun

theorem made_foldl (l : Ledger Gear) (ids : List Nat) :
    (ids.foldl Ledger.release l).made = l.made := by
  induction ids generalizing l with
  | nil => rfl
  | cons id ids ih => exact ih _

theorem Fitted.cleanUp (h : s.Fitted o) (rotated : Option Bool) : (s.cleanUp rotated).Fitted o := by
  refine ⟨nofun, nofun, fun id hid => ?_⟩
  have hmade : (s.cleanUp rotated).displays = s.lost := by
    rcases rotated with _ | _ | _ <;> exact List.append_nil _
  show (s.own.foldl Ledger.release s.ledger).made[id]? = _
  rw [hmade] at hid
  rw [made_foldl]
  exact h.display id (List.mem_append_left _ hid)

theorem Fitted.step {a : StreamAct} (hkept : s.Kept) (h : s.Fitted o)
    (hs : StreamTo.step o s a = some s') : s'.Fitted o := by
  have hvacant := hkept.vacant
  have hlost := hkept.lost
  have hdisplays : s.displays = s.lost ++ (s.stage.made ++ s.display.toList) := rfl
  have hkeep (g : Gear) {id : Nat} {b : Gear} (hid : s.ledger.made[id]? = some b) :
      (s.ledger.acquire g).made[id]? = some b := Ledger.acquire_lt s.ledger g b hid
  cases moves_of_step hs with
  | noEncoder hstage => exact h.stay hstage rfl
  | configured hstage => exact h.stay hstage rfl
  | opened id hstage => exact h.stay hstage rfl
  | started display hstage => exact h.stay hstage rfl
  | encode a loop loop' hstage => exact h.stay hstage rfl
  | dequeueThrows loop hstage => exact h.stay hstage rfl
  | returns loop rotated discarded hstage => exact h.stay hstage rfl
  | tears loop b taken hstage => exact h.stay hstage rfl
  | noDisplay hstage => exact h.stay hstage rfl
  | throws hstage => exact h.stay rfl (made_of_plain hstage).symm
  | encoder high hstage =>
    refine ⟨fun id hid => ⟨high, ?_⟩, fun id hid => hkeep _ (h.surface id hid), fun id hid => ?_⟩
    · cases hid
      exact s.ledger.acquire_next _
    · have hnone : id ∈ s.displays := by
        rw [hdisplays, hstage]
        exact hid
      exact hkeep _ (h.display id hnone)
  | surface hstage =>
    refine ⟨fun id hid => ?_, fun id hid => ?_, fun id hid => ?_⟩
    · obtain ⟨high, hhigh⟩ := h.codec id hid
      exact ⟨high, hkeep _ hhigh⟩
    · cases hid
      exact s.ledger.acquire_next _
    · have hnone : id ∈ s.displays := by
        rw [hdisplays, hstage]
        exact hid
      exact hkeep _ (h.display id hnone)
  | display hstage =>
    rw [hstage] at hvacant hlost
    refine ⟨fun id hid => ?_, fun id hid => hkeep _ (h.surface id hid), fun id hid => ?_⟩
    · obtain ⟨high, hhigh⟩ := h.codec id hid
      exact ⟨high, hkeep _ hhigh⟩
    · have hone : id = s.ledger.next := by
        simpa [displays, StreamStage.made, hlost rfl, show s.display = none from hvacant] using hid
      rw [hone]
      exact s.ledger.acquire_next _
  | unopened id hstage =>
    refine h.move rfl rfl ?_ rfl rfl
    rw [hdisplays, hstage]
    simp [displays, StreamStage.made]
  | projected id hstage =>
    rw [hstage] at hvacant
    refine h.move rfl rfl ?_ rfl rfl
    rw [hdisplays, hstage, show s.display = none from hvacant]
    simp [displays, StreamStage.made]
  | unprojected id hstage =>
    refine h.move rfl rfl ?_ rfl rfl
    rw [hdisplays, hstage]
    simp [displays, StreamStage.made]
  | cleanUp rotated hstage => exact h.cleanUp rotated
  | reconfigure size info hstage =>
    rw [hstage] at hvacant hlost
    refine fitted_of_vacant hvacant.1 hvacant.2.1 ?_
    simp [displays, StreamStage.made, hlost rfl, hvacant.2.2]

theorem fitted_run {size : EncoderSize} {as : List StreamAct}
    (h : (streamLts o size).run (streamLts o size).init as = some s) : s.Kept ∧ s.Fitted o :=
  have hstep : ∀ s a s', Kept s ∧ Fitted o s → (streamLts o size).step s a = some s' →
      Kept s' ∧ Fitted o s' :=
    fun _ _ _ hs h => ⟨hs.1.step h, hs.2.step hs.1 h⟩
  Lts.invariant hstep ⟨kept_init size, fitted_init size⟩ h

/-! ## Its loops -/

end StreamTo

/-- The loop of an encoder for the size. -/
def EncodeLoop.Ran (size : EncoderSize) (loop : EncodeLoop) : Prop :=
  ∃ display as, (encodeLts size.device display).run (encodeLts size.device display).init as =
    some loop

theorem EncodeLoop.Ran.inv {size : EncoderSize} {loop : EncodeLoop} (h : loop.Ran size) :
    loop.Inv :=
  let ⟨_, _, hrun⟩ := h
  inv_run hrun

theorem EncodeLoop.Ran.step {size : EncoderSize} {loop loop' : EncodeLoop} {a : EncodeAct}
    (h : loop.Ran size) (hs : loop.step size.device a = some loop') : loop'.Ran size := by
  obtain ⟨display, as, hrun⟩ := h
  exact ⟨display, as ++ [a], Lts.run_append.mpr ⟨loop, hrun, Lts.run_cons.mpr ⟨loop', hs, rfl⟩⟩⟩

/-- The loop has ended with a rotation. -/
def Place.rotated : Place → Bool
  | .returned rotated _ => rotated
  | _ => false

/-- The packet whose write has thrown. -/
def Place.torn : Place → List OutputBuffer
  | .threw b => [b]
  | _ => []

/-- The loop that runs. -/
def StreamStage.loop? : StreamStage → Option EncodeLoop
  | .encoding loop => some loop
  | _ => none

/-- Where an encoder is or is to come. -/
def StreamStage.goesOn : StreamStage → Bool
  | .cleanUp none | .cleanUp (some false) | .ended _ => false
  | _ => true

namespace StreamTo

variable {o : ServerOptions} {s s' : StreamTo}

/-- The loops of the encoders, in their order. -/
def loops (s : StreamTo) : List EncodeLoop :=
  s.past.map Prod.snd ++ s.stage.loop?.toList

/-- The packet whose write has thrown; it is in the last loop. -/
def tornPacket (s : StreamTo) : List OutputBuffer := s.loops.flatMap fun loop => loop.place.torn

/-- Each loop has run for the size of its own encoder, and one is followed by another
only behind a rotation; of a packet whose write has thrown a part is on the socket. -/
structure Turned (s : StreamTo) : Prop where
  past : ∀ p ∈ s.past, p.2.Ran p.1
  running : ∀ loop, s.stage.loop? = some loop → loop.Ran s.size
  rotated : ∀ p ∈ s.past.dropLast, p.2.place.rotated = true
  goesOn : s.stage.goesOn = true → s.torn = [] ∧ ∀ p ∈ s.past, p.2.place.rotated = true
  torn : s.torn <+: s.tornPacket.flatMap OutputBuffer.wire

theorem turned_init (size : EncoderSize) : (init size).Turned :=
  ⟨nofun, nofun, nofun, fun _ => ⟨rfl, nofun⟩, List.nil_prefix⟩

theorem torn_rotated {place : Place} (h : place.rotated = true) : place.torn = [] := by
  cases place with
  | threw b => cases h
  | _ => rfl

theorem tornPacket_past {past : List (EncoderSize × EncodeLoop)}
    (h : ∀ p ∈ past, p.2.place.rotated = true) :
    (past.map Prod.snd).flatMap (fun loop => loop.place.torn) = [] := by
  rw [List.flatMap_eq_nil_iff]
  intro loop hloop
  obtain ⟨p, hp, rfl⟩ := List.mem_map.mp hloop
  exact torn_rotated (h p hp)

theorem loop_of_plain {stage : StreamStage} (h : stage.plain = true) : stage.loop? = none := by
  cases stage with
  | encoding => cases h
  | _ => rfl

/-- Between two loops. -/
theorem Turned.stay (h : s.Turned) {old : StreamStage} (hstage : s.stage = old)
    (hold : old.loop? = none) (hnew : s'.stage.loop? = none)
    (hgoesOn : s'.stage.goesOn = true → old.goesOn = true) (hpast : s'.past = s.past)
    (htorn : s'.torn = s.torn) : s'.Turned := by
  have hsame : s'.loops = s.loops := by rw [loops, loops, hpast, hnew, hstage, hold]
  refine ⟨hpast ▸ h.past, fun loop hloop => ?_, hpast ▸ h.rotated, fun hon => ?_, ?_⟩
  · cases hnew.symm.trans hloop
  · rw [hpast, htorn]
    exact h.goesOn (hstage ▸ hgoesOn hon)
  · rw [htorn, tornPacket, hsame]
    exact h.torn

/-- A loop begins or goes on. -/
theorem Turned.encode (h : s.Turned) {loop : EncodeLoop} (hgoesOn : s.stage.goesOn = true)
    (hran : loop.Ran s.size) : Turned { s with stage := .encoding loop } := by
  have hpast := h.goesOn hgoesOn
  refine ⟨h.past, fun loop' hloop => ?_, h.rotated, fun _ => hpast, ?_⟩
  · cases hloop
    exact hran
  · show s.torn <+: _
    rw [hpast.1]
    exact List.nil_prefix

/-- A loop ends. -/
theorem Turned.leave (h : s.Turned) {loop : EncodeLoop} (hstage : s.stage = .encoding loop)
    (rotated : Option Bool) (hrotated : rotated = some true → loop.place.rotated = true)
    {torn : List UInt8} (htorn : torn <+: loop.place.torn.flatMap OutputBuffer.wire) :
    Turned { s with
      stage := .cleanUp rotated, past := s.past ++ [(s.size, loop)], torn := torn } := by
  have hgoesOn := (h.goesOn (by rw [hstage]; rfl)).2
  refine ⟨fun p hp => ?_, nofun, ?_, fun hon => ?_, ?_⟩
  · rcases List.mem_append.mp hp with hp | hp
    · exact h.past p hp
    · obtain rfl := List.mem_singleton.mp hp
      exact h.running loop (by rw [hstage]; rfl)
  · rw [List.dropLast_concat]
    exact hgoesOn
  · obtain rfl : rotated = some true := by
      rcases rotated with _ | _ | _
      · cases hon
      · cases hon
      · rfl
    refine ⟨?_, fun p hp => ?_⟩
    · rw [torn_rotated (hrotated rfl)] at htorn
      exact List.prefix_nil.mp htorn
    · rcases List.mem_append.mp hp with hp | hp
      · exact hgoesOn p hp
      · obtain rfl := List.mem_singleton.mp hp
        exact hrotated rfl
  · show torn <+: (((s.past ++ [(s.size, loop)]).map Prod.snd ++ []).flatMap _).flatMap _
    rw [List.append_nil, List.map_append, List.flatMap_append, tornPacket_past hgoesOn]
    simpa using htorn

theorem Turned.step {a : StreamAct} (h : s.Turned) (hs : StreamTo.step o s a = some s') :
    s'.Turned := by
  have hwhole {loop : EncodeLoop} (hstage : s.stage = .encoding loop) :
      s.torn <+: loop.place.torn.flatMap OutputBuffer.wire := by
    rw [(h.goesOn (by rw [hstage]; rfl)).1]
    exact List.nil_prefix
  cases moves_of_step hs with
  | noEncoder hstage => exact h.stay hstage rfl rfl nofun rfl rfl
  | encoder high hstage => exact h.stay hstage rfl rfl (fun _ => rfl) rfl rfl
  | configured hstage => exact h.stay hstage rfl rfl (fun _ => rfl) rfl rfl
  | surface hstage => exact h.stay hstage rfl rfl (fun _ => rfl) rfl rfl
  | display hstage => exact h.stay hstage rfl rfl (fun _ => rfl) rfl rfl
  | opened id hstage => exact h.stay hstage rfl rfl (fun _ => rfl) rfl rfl
  | unopened id hstage => exact h.stay hstage rfl rfl nofun rfl rfl
  | projected id hstage => exact h.stay hstage rfl rfl (fun _ => rfl) rfl rfl
  | unprojected id hstage => exact h.stay hstage rfl rfl nofun rfl rfl
  | started display hstage =>
    exact h.encode (by rw [hstage]; rfl) ⟨display, [], rfl⟩
  | throws hstage => exact h.stay rfl (loop_of_plain hstage) rfl nofun rfl rfl
  | encode a loop loop' hstage hloop =>
    exact h.encode (by rw [hstage]; rfl) ((h.running loop (by rw [hstage]; rfl)).step hloop)
  | dequeueThrows loop hstage htop => exact h.leave hstage none nofun (hwhole hstage)
  | returns loop rotated discarded hstage hplace =>
    refine h.leave hstage (some rotated) (fun hrotated => ?_) (hwhole hstage)
    rw [hplace]
    exact Option.some.inj hrotated
  | tears loop b taken hstage hplace =>
    refine h.leave hstage none nofun ?_
    rw [hplace, Place.torn, List.flatMap_singleton]
    exact List.take_prefix _ _
  | cleanUp rotated hstage =>
    rcases rotated with _ | _ | _
    · exact h.stay hstage rfl rfl nofun rfl rfl
    · exact h.stay hstage rfl rfl nofun rfl rfl
    · exact h.stay hstage rfl rfl (fun _ => rfl) rfl rfl
  | reconfigure size info hstage => exact h.stay hstage rfl rfl (fun _ => rfl) rfl rfl
  | noDisplay hstage => exact h.stay hstage rfl rfl nofun rfl rfl

theorem turned_run {size : EncoderSize} {as : List StreamAct}
    (h : (streamLts o size).run (streamLts o size).init as = some s) : s.Turned :=
  have hstep : ∀ s a s', Turned s → (streamLts o size).step s a = some s' → Turned s' :=
    fun _ _ _ hs h => hs.step h
  Lts.invariant hstep (turned_init size) h

theorem stage_of_outcome {stage : StreamStage} {ok : Bool} (h : stage.outcome = some ok) :
    stage = .ended ok := by
  cases stage with
  | ended ok' => exact congrArg StreamStage.ended (Option.some.inj h)
  | _ => cases h

theorem held_ended {ok : Bool} (hkept : s.Kept) (hstage : s.stage = .ended ok) :
    s.held = s.lost := by
  have hvacant := hkept.vacant
  rw [hstage] at hvacant
  simp [held, own, hstage, StreamStage.made, hvacant.1, hvacant.2.1, hvacant.2.2]

/-- Of what lives, a codec has its variable and a display its place. -/
theorem Fitted.live (hkept : s.Kept) (h : s.Fitted o) {id : Nat} (hid : s.ledger.Live id) :
    (s.codec = some id ∧ ∃ high, s.ledger.made[id]? = some (.codec (format o high s.size))) ∨
      s.ledger.made[id]? = some .surface ∨ s.ledger.made[id]? = some (.display s.size) := by
  have hmem := (hkept.holds.live_iff id).mp hid
  have hdisplay := h.display id
  simp only [held, own, displays, List.mem_append, Option.mem_toList] at hmem hdisplay
  rcases hmem with hlost | hmade | hvar | hvar | hvar
  · exact .inr (.inr (hdisplay (.inl hlost)))
  · exact .inr (.inr (hdisplay (.inr (.inl hmade))))
  · exact .inr (.inr (hdisplay (.inr (.inr hvar))))
  · exact .inl ⟨hvar, h.codec id hvar⟩
  · exact .inr (.inl (h.surface id hvar))

end StreamTo

open StreamTo

/-- **One encoder at a time, and all of it is given back.** Whatever throws and however
often the device turns, a codec that lives is the one in use and has the format of
the size that was read last, and so has a display; a loop that was followed by another
encoder has ended with a rotation. When `streamTo` has returned, every codec, surface
and display was given back exactly once. When it has thrown, too, except for one
display if the exception came out of `createVirtualDisplay`. -/
theorem stream_to_gives_back (o : ServerOptions) (size : EncoderSize) {as : List StreamAct}
    {s : StreamTo} (h : (streamLts o size).run (streamLts o size).init as = some s) :
    (∀ id f, s.ledger.Live id → s.ledger.made[id]? = some (.codec f) →
      s.codec = some id ∧ ∃ high, f = format o high s.size) ∧
    (∀ id e, s.ledger.Live id → s.ledger.made[id]? = some (.display e) → e = s.size) ∧
    (∀ p ∈ s.past.dropLast, p.2.place.rotated = true) ∧
    (∀ ok, s.stage.outcome = some ok →
      (∀ id < s.ledger.next, s.ledger.released.count id = if id ∈ s.lost then 0 else 1) ∧
      (ok = true → s.lost = []) ∧ s.transactions = 0) ∧
    s.lost.length ≤ 1 ∧ ∀ id ∈ s.lost, s.ledger.made[id]? = some (.display s.size) := by
  obtain ⟨hkept, hfitted⟩ := fitted_run h
  refine ⟨fun id f hlive hmade => ?_, fun id e hlive hmade => ?_, (turned_run h).rotated,
    fun ok houtcome => ⟨fun id hid => ?_, fun hok => ?_, ?_⟩, hkept.once, fun id hid => ?_⟩
  · obtain ⟨hvar, high, hcodec⟩ | hsurface | hdisplay := hfitted.live hkept hlive
    · exact ⟨hvar, high, Gear.codec.inj (Option.some.inj (hmade.symm.trans hcodec))⟩
    · cases hmade.symm.trans hsurface
    · cases hmade.symm.trans hdisplay
  · obtain ⟨-, high, hcodec⟩ | hsurface | hdisplay := hfitted.live hkept hlive
    · cases hmade.symm.trans hcodec
    · cases hmade.symm.trans hsurface
    · exact Gear.display.inj (Option.some.inj (hmade.symm.trans hdisplay))
  · have hholds := hkept.holds
    rw [held_ended hkept (stage_of_outcome houtcome)] at hholds
    exact hholds.count hid
  · exact hkept.lost (by rw [stage_of_outcome houtcome, hok]; rfl)
  · rw [hkept.transactions, stage_of_outcome houtcome]
    rfl
  · exact hfitted.display id (List.mem_append_left _ hid)

/-- A codec that is set up and started, until the phone turns to `turned`. -/
def untilTurned (size turned : Int × Int) : List StreamAct :=
  [.createEncoderByType true true, .configure true, .createInputSurface true, .createDisplay true,
    .openTransaction true, .setDisplay true, .start true size, .encode (.display turned),
    .encode (.dequeue (.info (-1))), .encode .check, .leave 0, .cleanUp]

/-- A phone that turns and turns back; the third display cannot be set up. -/
def turnTwice : List StreamAct :=
  untilTurned (1080, 2400) (2400, 1080) ++ [.reconfigure (some ⟨2400, 1080, 0⟩)] ++
    untilTurned (2400, 1080) (1080, 2400) ++ [.reconfigure (some ⟨1080, 2400, 0⟩),
      .createEncoderByType true true, .configure true, .createInputSurface true,
      .createDisplay true, .openTransaction true, .setDisplay false, .cleanUp]

theorem stream_to_gives_back_turn :
    ∃ s, (streamLts .default ⟨1080, 2400, 0, 1080, 2400⟩).run
        (streamLts .default ⟨1080, 2400, 0, 1080, 2400⟩).init turnTwice = some s ∧
      s.past.length = 2 ∧ (∀ p ∈ s.past.dropLast, p.2.place.rotated = true) ∧
      s.ledger.next = 9 ∧ s.ledger.released.count 3 = 1 ∧ s.ledger.released.count 8 = 0 := by
  have hrun : ((streamLts .default ⟨1080, 2400, 0, 1080, 2400⟩).run
      (streamLts .default ⟨1080, 2400, 0, 1080, 2400⟩).init turnTwice).any (fun s =>
        s.stage.outcome = some false ∧ s.past.length = 2 ∧ s.ledger.next = 9 ∧
          s.lost = [8]) = true := by
    decide +kernel
  obtain ⟨s, hs, hend⟩ := (Option.any_eq_true _ _).mp hrun
  obtain ⟨houtcome, hpast, hnext, hlost⟩ := of_decide_eq_true hend
  obtain ⟨-, -, hrotated, hended, -, -⟩ :=
    stream_to_gives_back .default ⟨1080, 2400, 0, 1080, 2400⟩ hs
  obtain ⟨hcount, -, -⟩ := hended false houtcome
  rw [hnext, hlost] at hcount
  exact ⟨s, hs, hpast, hrotated, hnext, hcount 3 (by decide), hcount 8 (by decide)⟩

end RigControl.Server
