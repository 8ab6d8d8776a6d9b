import Mathlib.Algebra.Order.Ring.Int
import RigControl.Lib.History
import RigControl.Lib.Ledger
import RigControl.Lib.MachineInt
import RigControl.Server.EncodeLoop

/-!
# The sound of the device

`runAudio` of `Server` with `prepare`, `streamTo` and `release` of `AudioEncoder`. The thread
decides on a codec, writes one `audio_meta`, and if there is an encoder feeds it what the
recorder delivers and writes what comes out. Every call into Android can throw; an
`Error` in `prepare`, which its `catch` lets through, is left out.

`release` is called at up to three places, and gives back what it finds.
-/

namespace RigControl.Server

open RigControl.Lib

namespace Protocol

def audioMagic : UInt32 := 0x52434E41
def acodecIdNone : UInt32 := 0x00000000
def acodecIdOpus : UInt32 := 0x6F707573

end Protocol

def sampleRate : UInt32 := 48000
def audioChannels : UInt32 := 2
def bytesPerFrame : Int64 := 4

def writeAudioMeta (codecId sampleRate channels : UInt32) : List UInt8 :=
  let buf := List.replicate (4 + 4 + 4 + 1) 0
  let (buf, p) := putInt buf 0 Protocol.audioMagic
  let (buf, p) := putInt buf p codecId
  let (buf, p) := putInt buf p sampleRate
  patch buf p [channels.toUInt8]

/-- The time of a sample, of the bytes that were read before it. -/
def audioPtsUs (totalBytes : Int64) : Int64 :=
  1000000 * (totalBytes / bytesPerFrame) / 48000

inductive AudioGear where
  | recorder | codec
  deriving DecidableEq, Repr

inductive AudioStage where
  | available
  | workarounds
  | buildRecorder
  | getState
  | createEncoder
  | configure
  /-- The `catch` of `prepare`. -/
  | unprepare
  | sendMeta
  | start
  | startRecording (attempt : Nat)
  | input
  | read
  | output
  | filled (b : OutputBuffer)
  /-- The `finally` of `streamTo`. -/
  | closing
  /-- The `finally` of `runAudio`. -/
  | finish
  | ended
  deriving DecidableEq

structure AudioRun where
  stage : AudioStage
  recorder : Option Nat
  codec : Option Nat
  ledger : Ledger AudioGear
  ready : Bool
  codecId : UInt32
  payload : List UInt8
  totalBytes : Int64
  /-- The size and the time of each buffer that was given to the encoder. -/
  queued : List (Int32 × Int64)
  dequeued : List OutputBuffer
  released : List Nat
  /-- What is on the socket: the meta, the packets, and a part of the one, or of the
  meta, whose write has thrown. -/
  audioMeta : List UInt8
  packets : List (List UInt8)
  torn : List UInt8
  failed : List OutputBuffer

/-- What `startRecording` leads to. -/
inductive Recording where
  | recording | refused | interrupted | throws
  deriving DecidableEq, Repr

inductive AudioAct where
  | available (api30 : Bool)
  | workarounds (ok : Bool)
  | buildRecorder (ok : Bool)
  | getState (initialized : Bool)
  | createEncoder (ok : Bool)
  | configure (ok : Bool)
  | unprepare
  /-- `sendAudioMeta`, with what the socket takes when it throws. -/
  | sendMeta (ok : Bool) (taken : Nat)
  | start (ok : Bool)
  | startRecording (result : Recording)
  /-- `dequeueInputBuffer`: whether there is one. -/
  | dequeueInput (index : Bool)
  | read (n : Int32)
  | dequeueOutput (b : Option OutputBuffer)
  /-- The `try` of an output buffer, as above. -/
  | process (ok : Bool) (taken : Nat)
  /-- A call of the loop throws, but for those on an output buffer. -/
  | throws
  | close
  deriving DecidableEq

namespace AudioRun

def init : AudioRun :=
  { stage := .available, recorder := none, codec := none, ledger := .empty, ready := false,
    codecId := Protocol.acodecIdNone, payload := List.replicate (packetHdr + 16 * 1024) 0,
    totalBytes := 0, queued := [], dequeued := [], released := [], audioMeta := [], packets := [],
    torn := [], failed := [] }

/-- `release`. -/
def release (s : AudioRun) : AudioRun :=
  { s with
    recorder := none
    codec := none
    ledger := (s.recorder.toList ++ s.codec.toList).foldl Ledger.release s.ledger }

/-- `prepare` has thrown: there is nothing to encode, and the meta says so. -/
def unavailable (s : AudioRun) : AudioRun :=
  { s with stage := .sendMeta, codecId := Protocol.acodecIdNone, ready := false }

/-- The array with the data in it, a longer one if need be. -/
def filledPayload (s : AudioRun) (b : OutputBuffer) : List UInt8 :=
  let payload :=
    if s.payload.length < packetHdr + b.size then List.replicate (packetHdr + b.size) 0
    else s.payload
  patch payload packetHdr b.payload

/-- The `try` of an output buffer and its `finally`. -/
def process (s : AudioRun) (b : OutputBuffer) (ok : Bool) (taken : Nat) : AudioRun :=
  if 0 < b.size && !b.eos then
    let packet := s.filledPayload b
    let bytes := writePacket b.config false b.ptsUs packet (UInt32.ofNat b.size)
    let s := { s with
      payload := patch (patch packet 0 (bytes64 (packetFlags b.config false b.ptsUs))) 8
        (bytes32 (UInt32.ofNat b.size))
      released := s.released ++ [b.index] }
    if ok then { s with stage := .output, packets := s.packets ++ [bytes] }
    else { s with stage := .closing, torn := bytes.take taken, failed := [b] }
  else { s with stage := .output, released := s.released ++ [b.index] }

/-- Behind `recorder.read`. -/
def queue (s : AudioRun) (n : Int32) : AudioRun :=
  let ptsUs := audioPtsUs s.totalBytes
  if 0 < n then
    { s with
      stage := .output
      totalBytes := s.totalBytes + n.toInt64
      queued := s.queued ++ [(n, ptsUs)] }
  else { s with stage := .output, queued := s.queued ++ [(0, ptsUs)] }

/-- `sendAudioMeta`, and what `runAudio` does behind it. -/
def sendMeta (s : AudioRun) (ok : Bool) (taken : Nat) : AudioRun :=
  let bytes := writeAudioMeta s.codecId sampleRate audioChannels
  if ok then { s with stage := if s.ready then .start else .finish, audioMeta := bytes }
  else { s with stage := .finish, torn := bytes.take taken }

/-- `startRecordingWithRetry`: three attempts. -/
def record (s : AudioRun) (attempt : Nat) : Recording → AudioRun
  | .recording => { s with stage := .input }
  | .refused => { s with stage := if attempt + 1 < 3 then .startRecording (attempt + 1) else .finish }
  | .interrupted | .throws => { s with stage := .finish }

def step (s : AudioRun) : AudioAct → Option AudioRun
  | .available api30 =>
    match s.stage with
    | .available => some (if api30 then { s with stage := .workarounds } else s.unavailable)
    | _ => none
  | .workarounds ok =>
    match s.stage with
    | .workarounds => some (if ok then { s with stage := .buildRecorder } else s.unavailable)
    | _ => none
  | .buildRecorder ok =>
    match s.stage with
    | .buildRecorder =>
      some (if ok then { s with stage := .getState, recorder := some s.ledger.next,
                                ledger := s.ledger.acquire .recorder }
        else s.unavailable)
    | _ => none
  | .getState initialized =>
    match s.stage with
    | .getState =>
      some (if initialized then { s with stage := .createEncoder }
        else unavailable { s with
          recorder := none, ledger := s.recorder.toList.foldl Ledger.release s.ledger })
    | _ => none
  | .createEncoder ok =>
    match s.stage with
    | .createEncoder =>
      some (if ok then { s with stage := .configure, codec := some s.ledger.next,
                                ledger := s.ledger.acquire .codec }
        else { s with stage := .unprepare })
    | _ => none
  | .configure ok =>
    match s.stage with
    | .configure =>
      some (if ok then { s with stage := .sendMeta, codecId := Protocol.acodecIdOpus, ready := true }
        else { s with stage := .unprepare })
    | _ => none
  | .unprepare =>
    match s.stage with
    | .unprepare => some s.release.unavailable
    | _ => none
  | .sendMeta ok taken =>
    match s.stage with
    | .sendMeta => some (s.sendMeta ok taken)
    | _ => none
  | .start ok =>
    match s.stage with
    | .start => some { s with stage := if ok then .startRecording 0 else .finish }
    | _ => none
  | .startRecording result =>
    match s.stage with
    | .startRecording attempt => some (s.record attempt result)
    | _ => none
  | .dequeueInput index =>
    match s.stage with
    | .input => some { s with stage := if index then .read else .output }
    | _ => none
  | .read n =>
    match s.stage with
    | .read => some (s.queue n)
    | _ => none
  | .dequeueOutput none =>
    match s.stage with
    | .output => some { s with stage := .input }
    | _ => none
  | .dequeueOutput (some b) =>
    match s.stage with
    | .output => some { s with stage := .filled b, dequeued := s.dequeued ++ [b] }
    | _ => none
  | .process ok taken =>
    match s.stage with
    | .filled b => some (s.process b ok taken)
    | _ => none
  | .throws =>
    match s.stage with
    | .input | .read | .output => some { s with stage := .closing }
    | _ => none
  | .close =>
    match s.stage with
    | .closing => some { s.release with stage := .finish }
    | .finish => some { s.release with stage := .ended }
    | _ => none

end AudioRun

def audioRunLts : Lts AudioRun AudioAct := { init := .init, step := AudioRun.step }

/-- The meta, field after field. -/
theorem writeAudioMeta_eq (codecId sampleRate channels : UInt32) :
    writeAudioMeta codecId sampleRate channels =
      bytes32 Protocol.audioMagic ++ (bytes32 codecId ++ (bytes32 sampleRate ++
        [channels.toUInt8])) := rfl

/-! ## What an act does -/

/-- Before the meta. -/
def AudioStage.early : AudioStage → Bool
  | .available | .workarounds | .buildRecorder | .getState | .createEncoder | .configure
  | .unprepare | .sendMeta => true
  | _ => false

/-- In `streamTo`, up to the end of its loop. -/
def AudioStage.streaming : AudioStage → Bool
  | .start | .startRecording _ | .input | .read | .output | .filled _ => true
  | _ => false

/-- Where `prepare` has not made anything. -/
def AudioStage.bare : AudioStage → Bool
  | .available | .workarounds | .buildRecorder => true
  | _ => false

/-- The output buffer that has not been released. -/
def AudioStage.holding : AudioStage → List OutputBuffer
  | .filled b => [b]
  | _ => []

/-- What is made later, or has been given back. -/
def AudioStage.Vacant (recorder codec : Option Nat) : AudioStage → Prop
  | .available | .workarounds | .buildRecorder | .ended => recorder = none ∧ codec = none
  | .getState | .createEncoder => codec = none
  | _ => True

/-- On to another call: within the part before the meta, within `streamTo`, or out of it. -/
inductive AudioStage.Leads : AudioStage → AudioStage → Prop where
  | early {old new : AudioStage} (hold : old.early = true) (hnew : new.early = true)
      (hvacant : ∀ recorder codec, old.Vacant recorder codec → new.Vacant recorder codec) :
      Leads old new
  | streaming {old new : AudioStage} (hold : old.streaming = true) (hnew : new.streaming = true)
      (hholding : new.holding = old.holding) : Leads old new
  | leave {old new : AudioStage} (hold : old.streaming = true)
      (hholding : old.holding = []) (hnew : new = .finish ∨ new = .closing) : Leads old new

namespace AudioRun

variable {s s' : AudioRun}

/-- The steps, each from the stage in which the thread takes it. -/
inductive Moves (s : AudioRun) : AudioRun → Prop where
  | next (stage : AudioStage) (hleads : s.stage.Leads stage) : Moves s { s with stage := stage }
  | unavailable (hstage : s.stage.bare = true) : Moves s s.unavailable
  | recorder (hstage : s.stage = .buildRecorder) :
      Moves s { s with
        stage := .getState, recorder := some s.ledger.next, ledger := s.ledger.acquire .recorder }
  | uninitialized (hstage : s.stage = .getState) :
      Moves s (unavailable { s with
        recorder := none, ledger := s.recorder.toList.foldl Ledger.release s.ledger })
  | codec (hstage : s.stage = .createEncoder) :
      Moves s { s with
        stage := .configure, codec := some s.ledger.next, ledger := s.ledger.acquire .codec }
  | prepared (hstage : s.stage = .configure) :
      Moves s { s with stage := .sendMeta, codecId := Protocol.acodecIdOpus, ready := true }
  | unprepared (hstage : s.stage = .unprepare) : Moves s s.release.unavailable
  | sendMeta (ok : Bool) (taken : Nat) (hstage : s.stage = .sendMeta) :
      Moves s (s.sendMeta ok taken)
  | queue (n : Int32) (hstage : s.stage = .read) : Moves s (s.queue n)
  | dequeue (b : OutputBuffer) (hstage : s.stage = .output) :
      Moves s { s with stage := .filled b, dequeued := s.dequeued ++ [b] }
  | process (b : OutputBuffer) (ok : Bool) (taken : Nat) (hstage : s.stage = .filled b) :
      Moves s (s.process b ok taken)
  | close (hstage : s.stage = .closing) : Moves s { s.release with stage := .finish }
  | finish (hstage : s.stage = .finish) : Moves s { s.release with stage := .ended }

/-- A step before the meta. -/
theorem Moves.early {old : AudioStage} (hstage : s.stage = old) {stage : AudioStage}
    (hold : old.early = true) (hnew : stage.early = true)
    (hvacant : ∀ recorder codec, old.Vacant recorder codec → stage.Vacant recorder codec) :
    Moves s { s with stage := stage } :=
  .next stage (hstage ▸ .early hold hnew hvacant)

theorem Moves.streaming {old : AudioStage} (hstage : s.stage = old) {stage : AudioStage}
    (hold : old.streaming = true) (hnew : stage.streaming = true)
    (hholding : stage.holding = old.holding) : Moves s { s with stage := stage } :=
  .next stage (hstage ▸ .streaming hold hnew hholding)

theorem Moves.leave {old : AudioStage} (hstage : s.stage = old) {stage : AudioStage}
    (hold : old.streaming = true) (hholding : old.holding = [])
    (hnew : stage = .finish ∨ stage = .closing) : Moves s { s with stage := stage } :=
  .next stage (hstage ▸ .leave hold hholding hnew)

theorem moves_record {attempt : Nat} (hstage : s.stage = .startRecording attempt)
    (result : Recording) : Moves s (s.record attempt result) := by
  cases result with
  | recording => exact .streaming hstage rfl rfl rfl
  | refused =>
    by_cases hagain : attempt + 1 < 3
    · rw [record, if_pos hagain]
      exact .streaming hstage rfl rfl rfl
    · rw [record, if_neg hagain]
      exact .leave hstage rfl rfl (.inl rfl)
  | interrupted | throws => exact .leave hstage rfl rfl (.inl rfl)

theorem moves_of_step {a : AudioAct} (hs : step s a = some s') : Moves s s' := by
  cases a with
  | available api30 =>
    simp only [step] at hs
    split at hs
    · rename_i hstage
      cases api30 <;> cases hs
      · exact .unavailable (by rw [hstage]; rfl)
      · exact .early hstage rfl rfl fun _ _ h => h
    · cases hs
  | workarounds ok =>
    simp only [step] at hs
    split at hs
    · rename_i hstage
      cases ok <;> cases hs
      · exact .unavailable (by rw [hstage]; rfl)
      · exact .early hstage rfl rfl fun _ _ h => h
    · cases hs
  | buildRecorder ok =>
    simp only [step] at hs
    split at hs
    · rename_i hstage
      cases ok <;> cases hs
      · exact .unavailable (by rw [hstage]; rfl)
      · exact .recorder hstage
    · cases hs
  | getState initialized =>
    simp only [step] at hs
    split at hs
    · rename_i hstage
      cases initialized <;> cases hs
      · exact .uninitialized hstage
      · exact .early hstage rfl rfl fun _ _ h => h
    · cases hs
  | createEncoder ok =>
    simp only [step] at hs
    split at hs
    · rename_i hstage
      cases ok <;> cases hs
      · exact .early hstage rfl rfl fun _ _ _ => trivial
      · exact .codec hstage
    · cases hs
  | configure ok =>
    simp only [step] at hs
    split at hs
    · rename_i hstage
      cases ok <;> cases hs
      · exact .early hstage rfl rfl fun _ _ _ => trivial
      · exact .prepared hstage
    · cases hs
  | unprepare =>
    simp only [step] at hs
    split at hs
    · cases hs
      exact .unprepared ‹_›
    · cases hs
  | sendMeta ok taken =>
    simp only [step] at hs
    split at hs
    · cases hs
      exact .sendMeta ok taken ‹_›
    · cases hs
  | start ok =>
    simp only [step] at hs
    split at hs
    · rename_i hstage
      cases ok <;> cases hs
      · exact .leave hstage rfl rfl (.inl rfl)
      · exact .streaming hstage rfl rfl rfl
    · cases hs
  | startRecording result =>
    simp only [step] at hs
    split at hs
    · cases hs
      exact moves_record ‹_› result
    · cases hs
  | dequeueInput index =>
    simp only [step] at hs
    split at hs
    · rename_i hstage
      cases index <;> cases hs
      · exact .streaming hstage rfl rfl rfl
      · exact .streaming hstage rfl rfl rfl
    · cases hs
  | read n =>
    simp only [step] at hs
    split at hs
    · cases hs
      exact .queue n ‹_›
    · cases hs
  | dequeueOutput b =>
    cases b with
    | none =>
      simp only [step] at hs
      split at hs
      · rename_i hstage
        cases hs
        exact .streaming hstage rfl rfl rfl
      · cases hs
    | some b =>
      simp only [step] at hs
      split at hs
      · cases hs
        exact .dequeue b ‹_›
      · cases hs
  | process ok taken =>
    simp only [step] at hs
    split at hs
    · cases hs
      exact .process _ ok taken ‹_›
    · cases hs
  | throws =>
    simp only [step] at hs
    split at hs
    all_goals
      rename_i hstage
      cases hs
    · exact .leave hstage rfl rfl (.inr rfl)
    · exact .leave hstage rfl rfl (.inr rfl)
    · exact .leave hstage rfl rfl (.inr rfl)
  | close =>
    simp only [step] at hs
    split at hs
    · cases hs
      exact .close ‹_›
    · cases hs
      exact .finish ‹_›
    · cases hs

/-! ## What it holds and what it writes -/

/-- The packet of a buffer; there is no key frame of sound. -/
def wire (b : OutputBuffer) : List UInt8 :=
  bytes64 (packetFlags b.config false b.ptsUs) ++ (bytes32 (UInt32.ofNat b.size) ++ b.payload)

def metaWire (s : AudioRun) : List UInt8 := writeAudioMeta s.codecId sampleRate audioChannels

/-- The recorder and the codec have their variables; the meta says whether there is an
encoder, and goes before everything else; the buffers that are settled have become
packets, if they were to. -/
structure Inv (s : AudioRun) : Prop where
  holds : s.ledger.Holds (s.recorder.toList ++ s.codec.toList)
  vacant : s.stage.Vacant s.recorder s.codec
  codecId : s.codecId = if s.ready then Protocol.acodecIdOpus else Protocol.acodecIdNone
  early : s.stage.early = true → s.audioMeta = [] ∧ s.dequeued = [] ∧ s.torn = []
  streaming : s.stage.streaming = true → s.ready = true ∧ s.audioMeta = s.metaWire ∧ s.failed = []
  socket : (s.audioMeta = [] ∧ s.dequeued = [] ∧ s.torn <+: s.metaWire) ∨
    (s.audioMeta = s.metaWire ∧ s.torn <+: s.failed.flatMap wire)
  silent : s.ready = false → s.dequeued = []
  room : packetHdr ≤ s.payload.length
  wanted : ∀ b ∈ s.failed, b.wanted = true
  releases : s.dequeued.map (·.index) = s.released ++ s.stage.holding.map (·.index)
  settled : ∃ settled, s.dequeued = settled ++ s.failed ++ s.stage.holding ∧
    s.packets = (settled.filter OutputBuffer.wanted).map wire

theorem inv_init : init.Inv where
  holds := Ledger.holds_empty
  vacant := ⟨rfl, rfl⟩
  codecId := rfl
  early := fun _ => ⟨rfl, rfl, rfl⟩
  streaming := nofun
  socket := .inl ⟨rfl, rfl, List.nil_prefix⟩
  silent := fun _ => rfl
  room := by
    rw [init, List.length_replicate]
    omega
  wanted := nofun
  releases := rfl
  settled := ⟨[], rfl, rfl⟩

/-- A step that moves on. -/
theorem Inv.move (h : s.Inv) {stage : AudioStage} (hvacant : stage.Vacant s.recorder s.codec)
    (hholding : stage.holding = s.stage.holding)
    (hearly : stage.early = true → s.stage.early = true)
    (hstreaming : stage.streaming = true → s.stage.streaming = true) :
    Inv { s with stage := stage } where
  holds := h.holds
  vacant := hvacant
  codecId := h.codecId
  early := fun he => h.early (hearly he)
  streaming := fun hs => h.streaming (hstreaming hs)
  socket := h.socket
  silent := h.silent
  room := h.room
  wanted := h.wanted
  releases := by rw [hholding]; exact h.releases
  settled := by rw [hholding]; exact h.settled

theorem holding_early {stage : AudioStage} (h : stage.early = true) : stage.holding = [] := by
  cases stage with
  | filled => cases h
  | _ => rfl

theorem vacant_streaming {stage : AudioStage} (h : stage.streaming = true)
    (recorder codec : Option Nat) : stage.Vacant recorder codec := by
  cases stage with
  | start | startRecording | input | read | output | filled => trivial
  | _ => cases h

theorem not_streaming {stage : AudioStage} (h : stage.early = true) : stage.streaming = false := by
  cases stage with
  | start | startRecording | input | read | output | filled | closing | finish | ended => cases h
  | _ => rfl

theorem not_early {stage : AudioStage} (h : stage.streaming = true) : stage.early = false := by
  cases hearly : stage.early with
  | false => rfl
  | true => rw [not_streaming hearly] at h; cases h

theorem Inv.next (h : s.Inv) {stage : AudioStage} (hleads : s.stage.Leads stage) :
    Inv { s with stage := stage } := by
  cases hleads with
  | early hold hnew hvacant =>
    refine h.move (hvacant _ _ h.vacant) ?_ (fun _ => hold) fun hs => ?_
    · rw [holding_early hold, holding_early hnew]
    · rw [not_streaming hnew] at hs
      cases hs
  | streaming hold hnew hholding =>
    refine h.move (vacant_streaming hnew _ _) hholding (fun he => ?_) fun _ => hold
    rw [not_early hnew] at he
    cases he
  | leave hold hholding hnew =>
    obtain rfl | rfl := hnew
    · exact h.move trivial hholding.symm nofun nofun
    · exact h.move trivial hholding.symm nofun nofun

/-- Nothing has been on the socket yet, and the codec is settled now. -/
theorem Inv.decide (h : s.Inv) (hearly : s.stage.early = true) (stage : AudioStage)
    (hnew : stage.early = true) {recorder codec : Option Nat} {ledger : Ledger AudioGear}
    (hholds : ledger.Holds (recorder.toList ++ codec.toList))
    (hvacant : stage.Vacant recorder codec) {ready : Bool} {codecId : UInt32}
    (hcodecId : codecId = if ready then Protocol.acodecIdOpus else Protocol.acodecIdNone) :
    Inv { s with
      stage := stage, recorder := recorder, codec := codec, ledger := ledger, ready := ready,
      codecId := codecId } := by
  obtain ⟨hmeta, hdequeued, htorn⟩ := h.early hearly
  refine ⟨hholds, hvacant, hcodecId, fun _ => ⟨hmeta, hdequeued, htorn⟩, fun hs => ?_,
    .inl ⟨hmeta, hdequeued, htorn ▸ List.nil_prefix⟩, fun _ => hdequeued, h.room, h.wanted, ?_, ?_⟩
  · rw [not_streaming hnew] at hs
    cases hs
  · have hreleases := h.releases
    rw [holding_early hearly] at hreleases
    rw [holding_early hnew]
    exact hreleases
  · have hsettled := h.settled
    rw [holding_early hearly] at hsettled
    rw [holding_early hnew]
    exact hsettled

theorem holds_release {l : Ledger AudioGear} {ids rest : List Nat} (h : l.Holds (ids ++ rest)) :
    (ids.foldl Ledger.release l).Holds rest := by
  induction ids generalizing l with
  | nil => exact h
  | cons id ids ih => exact ih h.release

theorem Inv.released (h : s.Inv) : s.release.ledger.Holds [] :=
  holds_release ((List.append_nil _).symm ▸ h.holds)

theorem early_of_bare {stage : AudioStage} (h : stage.bare = true) : stage.early = true := by
  cases stage with
  | available | workarounds | buildRecorder => rfl
  | _ => cases h

theorem Inv.sendMeta (h : s.Inv) (hstage : s.stage = .sendMeta) (ok : Bool) (taken : Nat) :
    (s.sendMeta ok taken).Inv := by
  obtain ⟨hmeta, hdequeued, htorn⟩ := h.early (by rw [hstage]; rfl)
  have hreleases := h.releases
  obtain ⟨settled, hsettled, hpackets⟩ := h.settled
  rw [hstage] at hreleases hsettled
  have hfailed : s.failed = [] := by
    rw [hdequeued] at hsettled
    simp only [AudioStage.holding, List.append_nil] at hsettled
    exact (List.append_eq_nil_iff.mp hsettled.symm).2
  cases ok with
  | false =>
    refine ⟨h.holds, trivial, h.codecId, nofun, nofun, .inl ⟨hmeta, hdequeued, ?_⟩, h.silent,
      h.room, h.wanted, hreleases, settled, hsettled, hpackets⟩
    exact List.take_prefix _ _
  | true =>
    have htorn' : s.torn <+: s.failed.flatMap wire := by
      rw [htorn]
      exact List.nil_prefix
    have hbehind {stage : AudioStage} (hnew : stage = .start ∧ s.ready = true ∨ stage = .finish) :
        Inv { s with stage := stage, audioMeta := s.metaWire } := by
      obtain ⟨rfl, hready⟩ | rfl := hnew
      · exact ⟨h.holds, trivial, h.codecId, nofun, fun _ => ⟨hready, rfl, hfailed⟩,
          .inr ⟨rfl, htorn'⟩, h.silent, h.room, h.wanted, hreleases, settled, hsettled, hpackets⟩
      · exact ⟨h.holds, trivial, h.codecId, nofun, nofun, .inr ⟨rfl, htorn'⟩, h.silent, h.room,
          h.wanted, hreleases, settled, hsettled, hpackets⟩
    refine @hbehind (if s.ready then .start else .finish) ?_
    split
    · exact .inl ⟨rfl, ‹_›⟩
    · exact .inr rfl

theorem Inv.queue (h : s.Inv) (hstage : s.stage = .read) (n : Int32) : (s.queue n).Inv := by
  have hout : Inv { s with stage := .output } :=
    h.move trivial (by rw [hstage]; rfl) nofun fun _ => by rw [hstage]; rfl
  obtain ⟨hholds, hvacant, hcodecId, hearly, hstreaming, hsocket, hsilent, hroom, hwanted,
    hreleases, hsettled⟩ := hout
  unfold AudioRun.queue
  split
  · exact ⟨hholds, hvacant, hcodecId, hearly, hstreaming, hsocket, hsilent, hroom, hwanted,
      hreleases, hsettled⟩
  · exact ⟨hholds, hvacant, hcodecId, hearly, hstreaming, hsocket, hsilent, hroom, hwanted,
      hreleases, hsettled⟩

theorem metaWire_ne_nil (s : AudioRun) : s.metaWire ≠ [] := by
  rw [metaWire, writeAudioMeta_eq]
  exact List.cons_ne_nil _ _

/-- In the loop only a packet is torn. -/
theorem Inv.torn_failed (h : s.Inv) (hstreaming : s.stage.streaming = true) :
    s.torn <+: s.failed.flatMap wire := by
  obtain ⟨hnil, -, -⟩ | ⟨-, htorn⟩ := h.socket
  · rw [(h.streaming hstreaming).2.1] at hnil
    exact absurd hnil s.metaWire_ne_nil
  · exact htorn

theorem Inv.dequeue (h : s.Inv) (hstage : s.stage = .output) (b : OutputBuffer) :
    Inv { s with stage := .filled b, dequeued := s.dequeued ++ [b] } := by
  obtain ⟨hready, hmeta, hfailed⟩ := h.streaming (by rw [hstage]; rfl)
  have hreleases := h.releases
  obtain ⟨settled, hsettled, hpackets⟩ := h.settled
  rw [hstage] at hreleases hsettled
  have hsocket := h.torn_failed (by rw [hstage]; rfl)
  refine ⟨h.holds, trivial, h.codecId, nofun, fun _ => ⟨hready, hmeta, hfailed⟩,
    .inr ⟨hmeta, hsocket⟩, fun hnot => ?_, h.room, h.wanted, ?_, settled, ?_, hpackets⟩
  · rw [hready] at hnot
    cases hnot
  · simp [AudioStage.holding, hreleases]
  · simp [AudioStage.holding, hsettled]

theorem length_filledPayload (s : AudioRun) (b : OutputBuffer) :
    packetHdr + b.size ≤ (s.filledPayload b).length := by
  unfold filledPayload
  rw [length_patch]
  · split
    · rw [List.length_replicate]
    · omega
  · rw [b.length_payload]
    split
    · rw [List.length_replicate]
    · omega

/-- Whatever the array held, the packet is that of the buffer. -/
theorem writePacket_filled (h : packetHdr ≤ s.payload.length) (b : OutputBuffer) :
    writePacket b.config false b.ptsUs (s.filledPayload b) (UInt32.ofNat b.size) = wire b := by
  simp only [filledPayload, patch]
  refine writePacket_eq b.config false b.ptsUs _ ?_ (EncodeLoop.size_toNat b)
  rw [List.length_take]
  split
  · rw [List.length_replicate]
    omega
  · omega

theorem length_headed (s : AudioRun) (b : OutputBuffer) :
    packetHdr ≤ (patch (patch (s.filledPayload b) 0
      (bytes64 (packetFlags b.config false b.ptsUs))) 8 (bytes32 (UInt32.ofNat b.size))).length := by
  have hfilled := length_filledPayload s b
  have hflags : (patch (s.filledPayload b) 0
      (bytes64 (packetFlags b.config false b.ptsUs))).length = (s.filledPayload b).length := by
    refine length_patch ?_
    show 0 + 8 ≤ _
    simp only [packetHdr] at hfilled
    omega
  rw [length_patch, hflags]
  · omega
  · rw [hflags, length_bytes32]
    simp only [packetHdr] at hfilled
    omega

theorem filter_wanted {b : OutputBuffer} (h : b.wanted = true) :
    [b].filter OutputBuffer.wanted = [b] :=
  List.filter_eq_self.mpr fun _ hc => List.mem_singleton.mp hc ▸ h

theorem filter_unwanted {b : OutputBuffer} (h : ¬b.wanted = true) :
    [b].filter OutputBuffer.wanted = [] :=
  List.filter_eq_nil_iff.mpr fun _ hc => List.mem_singleton.mp hc ▸ h

theorem Inv.process (h : s.Inv) {b : OutputBuffer} (hstage : s.stage = .filled b) (ok : Bool)
    (taken : Nat) : (s.process b ok taken).Inv := by
  obtain ⟨hready, hmeta, hfailed⟩ := h.streaming (by rw [hstage]; rfl)
  have htorn := h.torn_failed (by rw [hstage]; rfl)
  have hreleases := h.releases
  obtain ⟨settled, hsettled, hpackets⟩ := h.settled
  rw [hstage] at hreleases hsettled
  rw [hfailed] at hsettled htorn
  simp only [AudioStage.holding, List.append_nil, List.map_cons, List.map_nil] at hreleases hsettled
  have hreleased : s.dequeued.map (·.index) = (s.released ++ [b.index]) ++ [] := by
    rw [List.append_nil]
    exact hreleases
  have hsilent {ready : Bool} (hnot : ready = false) (hr : ready = true) : s.dequeued = [] := by
    rw [hnot] at hr
    cases hr
  have hall : s.dequeued = settled ++ [b] ++ [] ++ [] := by
    rw [List.append_nil, List.append_nil]
    exact hsettled
  unfold AudioRun.process
  split
  · rename_i hwanted
    have hroom := length_headed s b
    have hbytes := writePacket_filled h.room b
    split
    · refine ⟨h.holds, trivial, h.codecId, nofun, fun _ => ⟨hready, hmeta, hfailed⟩,
        .inr ⟨hmeta, ?_⟩, fun hnot => hsilent hnot hready, hroom, h.wanted, hreleased,
        settled ++ [b], ?_, ?_⟩
      · exact hfailed ▸ htorn
      · show s.dequeued = settled ++ [b] ++ s.failed ++ []
        rw [hfailed]
        exact hall
      · show s.packets ++ [_] = _
        rw [hbytes, hpackets, List.filter_append, List.map_append, filter_wanted hwanted]
        rfl
    · refine ⟨h.holds, trivial, h.codecId, nofun, nofun, .inr ⟨hmeta, ?_⟩,
        fun hnot => hsilent hnot hready, hroom, fun c hc => ?_, hreleased, settled, ?_, hpackets⟩
      · show (writePacket _ _ _ _ _).take taken <+: [b].flatMap wire
        rw [hbytes, List.flatMap_singleton]
        exact List.take_prefix _ _
      · rw [List.mem_singleton.mp hc]
        exact hwanted
      · show s.dequeued = settled ++ [b] ++ []
        rw [List.append_nil]
        exact hsettled
  · rename_i hskip
    refine ⟨h.holds, trivial, h.codecId, nofun, fun _ => ⟨hready, hmeta, hfailed⟩,
      .inr ⟨hmeta, ?_⟩, fun hnot => hsilent hnot hready, h.room, h.wanted, hreleased,
      settled ++ [b], ?_, ?_⟩
    · exact hfailed ▸ htorn
    · show s.dequeued = settled ++ [b] ++ s.failed ++ []
      rw [hfailed]
      exact hall
    · show s.packets = _
      rw [hpackets, List.filter_append, filter_unwanted hskip, List.append_nil]

theorem Inv.step {a : AudioAct} (h : s.Inv) (hs : step s a = some s') : s'.Inv := by
  have hvacant := h.vacant
  have hholds := h.holds
  cases moves_of_step hs with
  | next stage hleads => exact h.next hleads
  | unavailable hstage => exact h.decide (early_of_bare hstage) .sendMeta rfl hholds trivial rfl
  | recorder hstage =>
    rw [hstage] at hvacant
    rw [hvacant.1, hvacant.2] at hholds
    refine h.decide (by rw [hstage]; rfl) .getState rfl ?_ hvacant.2 h.codecId
    rw [hvacant.2]
    exact hholds.acquire .recorder
  | uninitialized hstage =>
    rw [hstage] at hvacant
    rw [show s.codec = none from hvacant] at hholds
    refine h.decide (by rw [hstage]; rfl) .sendMeta rfl ?_ trivial rfl
    rw [show s.codec = none from hvacant]
    exact holds_release hholds
  | codec hstage =>
    rw [hstage] at hvacant
    rw [show s.codec = none from hvacant, Option.toList_none, List.append_nil] at hholds
    refine h.decide (by rw [hstage]; rfl) .configure rfl ?_ trivial h.codecId
    exact (hholds.acquire .codec).perm (List.perm_append_singleton _ _).symm
  | prepared hstage => exact h.decide (by rw [hstage]; rfl) .sendMeta rfl hholds trivial rfl
  | unprepared hstage => exact h.decide (by rw [hstage]; rfl) .sendMeta rfl h.released trivial rfl
  | sendMeta ok taken hstage => exact h.sendMeta hstage ok taken
  | queue n hstage => exact h.queue hstage n
  | dequeue b hstage => exact h.dequeue hstage b
  | process b ok taken hstage => exact h.process hstage ok taken
  | close hstage =>
    have hmove : Inv { s with stage := .finish } := h.move trivial (by rw [hstage]; rfl) nofun nofun
    exact ⟨h.released, trivial, hmove.codecId, nofun, nofun, hmove.socket, hmove.silent, hmove.room,
      hmove.wanted, hmove.releases, hmove.settled⟩
  | finish hstage =>
    have hmove : Inv { s with stage := .closing } :=
      h.move trivial (by rw [hstage]; rfl) nofun nofun
    exact ⟨h.released, ⟨rfl, rfl⟩, hmove.codecId, nofun, nofun, hmove.socket, hmove.silent,
      hmove.room, hmove.wanted, hmove.releases, hmove.settled⟩

theorem inv_run {as : List AudioAct} (h : audioRunLts.run audioRunLts.init as = some s) : s.Inv :=
  have hstep : ∀ s a s', Inv s → audioRunLts.step s a = some s' → Inv s' :=
    fun _ _ _ hs h => hs.step h
  Lts.invariant hstep inv_init h

end AudioRun

/-! ## The time of the sound -/

/-- Up to a year and a half of sound nothing overflows. -/
theorem toInt_audioPtsUs {total : Int64} (hpos : 0 ≤ total.toInt) (hmax : total.toInt < 2 ^ 43) :
    (audioPtsUs total).toInt = 1000000 * (total.toInt / 4) / 48000 := by
  have hframes : (total / bytesPerFrame).toInt = total.toInt / 4 := by
    have hne : total ≠ Int64.minValue := by
      rintro rfl
      exact absurd hpos (by decide)
    rw [Int64.toInt_div_of_ne_left _ _ hne, Int.tdiv_eq_ediv_of_nonneg hpos]
    rfl
  have hproduct : (1000000 * (total / bytesPerFrame)).toInt = 1000000 * (total.toInt / 4) := by
    rw [Int64.toInt_mul, hframes]
    exact Int.bmod_eq_of_le (by show -(2 ^ 64 / 2) ≤ 1000000 * _; omega) (by show 1000000 * _ < _; omega)
  have hne : 1000000 * (total / bytesPerFrame) ≠ Int64.minValue := by
    intro hmin
    rw [hmin] at hproduct
    have hval : Int64.minValue.toInt = -2 ^ 63 := by decide
    omega
  rw [audioPtsUs, Int64.toInt_div_of_ne_left _ _ hne, hproduct, Int.tdiv_eq_ediv_of_nonneg (by omega)]
  rfl

/-- The time of what is read behind the bytes, in microseconds. -/
def soundTime (bytes : Int) : Int := 1000000 * (bytes / 4) / 48000

theorem soundTime_mono {a b : Int} (h : a ≤ b) : soundTime a ≤ soundTime b :=
  Int.ediv_le_ediv (by decide)
    (Int.mul_le_mul_of_nonneg_left (Int.ediv_le_ediv (by decide) h) (by decide))

/-- The bytes that were read. -/
def readBytes (queued : List (Int32 × Int64)) : Int := (queued.map fun e => e.1.toInt).sum

theorem readBytes_snoc (queued : List (Int32 × Int64)) (e : Int32 × Int64) :
    readBytes (queued ++ [e]) = readBytes queued + e.1.toInt := by
  simp [readBytes]

namespace AudioRun

variable {s s' : AudioRun}

/-- Every buffer has the time of the bytes before it, and the times do not go back. -/
structure Timed (s : AudioRun) : Prop where
  total : s.totalBytes.toInt = readBytes s.queued
  nonneg : 0 ≤ readBytes s.queued
  times : Each (fun before e => e.2.toInt = soundTime (readBytes before)) s.queued
  latest : ∀ e ∈ s.queued, e.2.toInt ≤ soundTime (readBytes s.queued)
  sorted : s.queued.Pairwise fun d e => d.2.toInt ≤ e.2.toInt

theorem timed_init : init.Timed :=
  ⟨rfl, Int.le_refl 0, .nil, nofun, .nil⟩

/-- One more buffer, of the bytes that follow. -/
theorem Timed.snoc (h : s.Timed) (n : Int32) (hn : 0 ≤ n.toInt)
    (hmax : readBytes s.queued + n.toInt < 2 ^ 43) {totalBytes : Int64}
    (htotal : totalBytes.toInt = readBytes s.queued + n.toInt) :
    Timed { s with
      stage := .output, totalBytes := totalBytes,
      queued := s.queued ++ [(n, audioPtsUs s.totalBytes)] } := by
  obtain ⟨hold, hnonneg, htimes, hlatest, hsorted⟩ := h
  have hpts : (audioPtsUs s.totalBytes).toInt = soundTime (readBytes s.queued) := by
    rw [toInt_audioPtsUs (by rw [hold]; exact hnonneg) (by rw [hold]; omega), hold]
    rfl
  have hsum := readBytes_snoc s.queued (n, audioPtsUs s.totalBytes)
  have hmono : soundTime (readBytes s.queued) ≤ soundTime (readBytes s.queued + n.toInt) :=
    soundTime_mono (by omega)
  refine ⟨htotal.trans hsum.symm, ?_, htimes.snoc hpts, fun e he => ?_, ?_⟩
  · show 0 ≤ readBytes (_ ++ _)
    rw [hsum]
    exact Int.add_nonneg hnonneg hn
  · show _ ≤ soundTime (readBytes (_ ++ _))
    rw [hsum]
    rcases List.mem_append.mp he with he | he
    · exact (hlatest e he).trans hmono
    · rw [List.mem_singleton.mp he, hpts]
      exact hmono
  · rw [List.pairwise_append]
    refine ⟨hsorted, List.pairwise_singleton _ _, fun d hd e he => ?_⟩
    rw [List.mem_singleton.mp he, hpts]
    exact hlatest d hd

theorem Timed.queue (h : s.Timed) (n : Int32)
    (hmax : readBytes (s.queue n).queued < 2 ^ 43) : (s.queue n).Timed := by
  have hzero : (0 : Int32).toInt = 0 := rfl
  by_cases hn : 0 < n
  · have hpos : 0 < n.toInt := Int32.lt_iff_toInt_lt.mp hn
    rw [AudioRun.queue, if_pos hn] at hmax ⊢
    have hsum := readBytes_snoc s.queued (n, audioPtsUs s.totalBytes)
    have hlt : readBytes s.queued + n.toInt < 2 ^ 43 := hsum ▸ hmax
    have hnonneg := h.nonneg
    refine h.snoc n hpos.le hlt ?_
    rw [Int64.toInt_add, Int32.toInt_toInt64, h.total]
    exact Int.bmod_eq_of_le (by show -(2 ^ 64 / 2) ≤ _; omega) (by show _ < (2 ^ 64 : Int) / 2; omega)
  · rw [AudioRun.queue, if_neg hn] at hmax ⊢
    have hsum := readBytes_snoc s.queued (0, audioPtsUs s.totalBytes)
    have hlt : readBytes s.queued + (0 : Int32).toInt < 2 ^ 43 := hsum ▸ hmax
    exact h.snoc 0 (Int.le_refl 0) hlt (by rw [h.total, hzero, Int.add_zero])

/-- What is read is not taken back. -/
theorem readBytes_queue (s : AudioRun) (n : Int32) :
    readBytes s.queued ≤ readBytes (s.queue n).queued := by
  by_cases hn : 0 < n
  · have hpos : 0 < n.toInt := Int32.lt_iff_toInt_lt.mp hn
    rw [AudioRun.queue, if_pos hn]
    show _ ≤ readBytes (_ ++ _)
    rw [readBytes_snoc]
    exact Int.le_add_of_nonneg_right hpos.le
  · rw [AudioRun.queue, if_neg hn]
    show _ ≤ readBytes (_ ++ _)
    rw [readBytes_snoc]
    exact Int.le_add_of_nonneg_right (Int.le_refl 0)

/-- A step queues a buffer, or none. -/
theorem queued_of_moves (h : s.Moves s') :
    (∃ n, s' = s.queue n) ∨ s'.queued = s.queued ∧ s'.totalBytes = s.totalBytes := by
  cases h with
  | queue n => exact .inl ⟨n, rfl⟩
  | sendMeta ok taken =>
    refine .inr ?_
    unfold AudioRun.sendMeta
    split <;> exact ⟨rfl, rfl⟩
  | process b ok taken =>
    refine .inr ?_
    unfold AudioRun.process
    split
    · split <;> exact ⟨rfl, rfl⟩
    · exact ⟨rfl, rfl⟩
  | _ => exact .inr ⟨rfl, rfl⟩

theorem Timed.step {a : AudioAct} (h : readBytes s.queued < 2 ^ 43 → s.Timed)
    (hs : AudioRun.step s a = some s') (hmax : readBytes s'.queued < 2 ^ 43) : s'.Timed := by
  obtain ⟨n, rfl⟩ | ⟨hqueued, htotal⟩ := queued_of_moves (moves_of_step hs)
  · exact (h ((readBytes_queue s n).trans_lt hmax)).queue n hmax
  · rw [hqueued] at hmax
    obtain ⟨hold, hnonneg, htimes, hlatest, hsorted⟩ := h hmax
    refine ⟨?_, ?_, ?_, ?_, ?_⟩
    · rw [htotal, hqueued, hold]
    · rw [hqueued]
      exact hnonneg
    · rw [hqueued]
      exact htimes
    · rw [hqueued]
      exact hlatest
    · rw [hqueued]
      exact hsorted

theorem timed_run {as : List AudioAct} (h : audioRunLts.run audioRunLts.init as = some s)
    (hmax : readBytes s.queued < 2 ^ 43) : s.Timed :=
  Lts.invariant (I := fun t => readBytes t.queued < 2 ^ 43 → t.Timed)
    (fun _ _ _ ht hs => Timed.step ht hs) (fun _ => timed_init) h hmax

end AudioRun

open AudioRun

/-- **The sound thread keeps its word.** In every run the recorder and the codec that live
are those of the thread, and both were given back exactly once when it ends. The output
buffers are released once and in order. The meta names a codec if and only if there
is an encoder, and without one nothing is encoded. Each buffer that goes into the encoder has
the time of the sound before it, and the times do not go back. -/
theorem audio_run_settles {as : List AudioAct} {s : AudioRun}
    (h : audioRunLts.run audioRunLts.init as = some s) :
    (∀ id, s.ledger.Live id ↔ s.recorder = some id ∨ s.codec = some id) ∧
    (s.stage = .ended → s.ledger.Settled) ∧
    s.dequeued.map (·.index) = s.released ++ s.stage.holding.map (·.index) ∧
    (s.audioMeta = [] ∨ s.audioMeta = writeAudioMeta
      (if s.ready then Protocol.acodecIdOpus else Protocol.acodecIdNone) sampleRate audioChannels) ∧
    (s.ready = false → s.dequeued = []) ∧
    (readBytes s.queued < 2 ^ 43 →
      Each (fun before e => e.2.toInt = soundTime (readBytes before)) s.queued ∧
      s.queued.Pairwise fun d e => d.2.toInt ≤ e.2.toInt) := by
  have hinv := inv_run h
  refine ⟨fun id => ?_, fun hstage => ?_, hinv.releases, ?_, hinv.silent, fun hmax => ?_⟩
  · rw [hinv.holds.live_iff, List.mem_append, Option.mem_toList, Option.mem_toList]
  · have hvacant := hinv.vacant
    have hholds := hinv.holds
    rw [hstage] at hvacant
    rw [hvacant.1, hvacant.2] at hholds
    exact hholds.settled
  · rw [← hinv.codecId]
    exact hinv.socket.imp (fun hnone => hnone.1) fun hmeta => hmeta.1
  · have htimed := timed_run h hmax
    exact ⟨htimed.times, htimed.sorted⟩

/-- Two reads, and a packet of two bytes that the socket takes. -/
def twoReads : List AudioAct :=
  [.available true, .workarounds true, .buildRecorder true, .getState true, .createEncoder true,
    .configure true, .sendMeta true 0, .start true, .startRecording .refused,
    .startRecording .recording, .dequeueInput true, .read 3840, .dequeueOutput none,
    .dequeueInput true, .read 3840, .dequeueOutput (some keyBuffer), .process true 0, .throws,
    .close, .close]

theorem audio_run_settles_two :
    ∃ s, audioRunLts.run audioRunLts.init twoReads = some s ∧ s.ledger.Settled ∧
      s.released = [3] ∧ s.queued.Pairwise fun d e => d.2.toInt ≤ e.2.toInt := by
  have hrun : (audioRunLts.run audioRunLts.init twoReads).any (fun s =>
      s.stage = .ended ∧ s.dequeued = [keyBuffer] ∧ readBytes s.queued = 7680) = true := by
    decide +kernel
  obtain ⟨s, hs, hend⟩ := (Option.any_eq_true _ _).mp hrun
  obtain ⟨hstage, hdequeued, hread⟩ := of_decide_eq_true hend
  obtain ⟨-, hsettled, hreleases, -, -, htimes⟩ := audio_run_settles hs
  rw [hstage, hdequeued] at hreleases
  exact ⟨s, hs, hsettled hstage, (List.append_nil _).symm.trans hreleases.symm,
    (htimes (by rw [hread]; decide)).2⟩

end RigControl.Server
