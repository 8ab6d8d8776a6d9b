import RigControl.Lib.Lts
import RigControl.Server.VideoOutput

/-!
# The encode loop

`encodeLoop` of `ScreenEncoder`, between `dequeueOutputBuffer` and `releaseOutputBuffer` of
`MediaCodec`. A step of the loop ends where its environment comes in: at the next
buffer or info code, at a look at the size of the display, at a write to the socket.
The display changes at any moment between two steps.

The loop has a buffer at a time, so it releases the buffers in the order in which it
has dequeued them. `EncodeLoop.dequeued`, `EncodeLoop.released` and `EncodeLoop.written` are
what it has done so far.
-/

namespace RigControl.Server

open RigControl.Lib

/-- What a `BufferInfo` and the buffer of its index hold: the valid data lie in the
`ByteBuffer`, and an array has room for them behind the header of a packet. -/
structure OutputBuffer where
  index : Nat
  flags : UInt32
  ptsUs : UInt64
  bytes : List UInt8
  offset : Nat
  size : Nat
  inside : offset + size ≤ bytes.length
  fits : packetHdr + size < 2 ^ 31
  deriving DecidableEq

namespace OutputBuffer

variable (b : OutputBuffer)

/-- `BUFFER_FLAG_KEY_FRAME`. -/
def key : Bool := b.flags &&& 1 ≠ 0

/-- `BUFFER_FLAG_CODEC_CONFIG`. -/
def config : Bool := b.flags &&& 2 ≠ 0

/-- `BUFFER_FLAG_END_OF_STREAM`. -/
def eos : Bool := b.flags &&& 4 ≠ 0

/-- Between `position(offset)` and `limit(offset + size)`. -/
def payload : List UInt8 := (b.bytes.drop b.offset).take b.size

/-- The buffer is to become a packet. -/
def wanted : Bool := 0 < b.size && !b.eos

/-- Its packet: its flags and time, its length, its data. -/
def wire : List UInt8 :=
  bytes64 (packetFlags b.config b.key b.ptsUs) ++ (bytes32 (UInt32.ofNat b.size) ++ b.payload)

theorem length_payload : b.payload.length = b.size := by
  have hinside := b.inside
  simp only [payload, List.length_take, List.length_drop]
  omega

end OutputBuffer

/-- What `dequeueOutputBuffer` returns: a negative `INFO_` code, or a buffer. -/
inductive Dequeued where
  | info (code : Int)
  | buffer (b : OutputBuffer)
  deriving DecidableEq

/-- Where the loop is: before `dequeueOutputBuffer`, behind an info code, behind a buffer,
behind its check and before the `try`; or it has returned, with the buffer it has
discarded, or the write of a buffer has thrown. -/
inductive Place where
  | top
  | idle
  | dequeued (b : OutputBuffer)
  | checked (b : OutputBuffer)
  | returned (rotated : Bool) (discarded : Option OutputBuffer)
  | threw (b : OutputBuffer)
  deriving DecidableEq

/-- The buffer that has not been released. -/
def Place.holding : Place → List OutputBuffer
  | .dequeued b | .checked b => [b]
  | _ => []

/-- The last buffer, when it has not become a packet or been passed over: it is still
to come, or it was discarded, or its write failed. -/
def Place.pending : Place → List OutputBuffer
  | .dequeued b | .checked b | .threw b => [b]
  | .returned _ discarded => discarded.toList
  | _ => []

structure EncodeLoop where
  place : Place
  buffer : List UInt8
  sinceCheck : Nat
  display : Int × Int
  dequeued : List OutputBuffer
  released : List Nat
  written : List (List UInt8)

inductive EncodeAct where
  /-- The display has another size. -/
  | display (size : Int × Int)
  | dequeue (result : Dequeued)
  /-- Up to the `continue`, the `return` or the `try`. -/
  | check
  /-- The `try`, and whether the socket takes the packet. -/
  | process (ok : Bool)
  deriving DecidableEq

namespace EncodeLoop

def init (display : Int × Int) : EncodeLoop :=
  { place := .top, buffer := List.replicate (packetHdr + 256 * 1024) 0, sinceCheck := 0, display,
    dequeued := [], released := [], written := [] }

/-- `rotationChanged`; `device` is the size that `configure` has read. -/
def rotationChanged (device : Int × Int) (s : EncodeLoop) : Bool :=
  s.display.1 ≠ device.1 || s.display.2 ≠ device.2

/-- `releaseOutputBuffer`. -/
def release (s : EncodeLoop) (b : OutputBuffer) : EncodeLoop :=
  { s with released := s.released ++ [b.index] }

/-- The array with the data in it, a longer one if need be. -/
def copied (s : EncodeLoop) (b : OutputBuffer) : List UInt8 :=
  let buffer :=
    if s.buffer.length < packetHdr + b.size then List.replicate (packetHdr + b.size) 0
    else s.buffer
  patch buffer packetHdr b.payload

/-- The array behind `writePacket`. -/
def headed (b : OutputBuffer) (packet : List UInt8) : List UInt8 :=
  patch (patch packet 0 (bytes64 (packetFlags b.config b.key b.ptsUs))) 8
    (bytes32 (UInt32.ofNat b.size))

/-- The `try` and its `finally`. -/
def process (s : EncodeLoop) (b : OutputBuffer) (ok : Bool) : EncodeLoop :=
  if 0 < b.size && !b.eos then
    let packet := s.copied b
    let s := { s with buffer := headed b packet }
    if ok then
      let bytes := writePacket b.config b.key b.ptsUs packet (UInt32.ofNat b.size)
      { s with place := .top, written := s.written ++ [bytes] }.release b
    else { s with place := .threw b }.release b
  else if b.eos then { s with place := .returned false none }.release b
  else { s with place := .top }.release b

/-- The check of a buffer: every thirtieth looks at the display. -/
def checkBuffer (device : Int × Int) (s : EncodeLoop) (b : OutputBuffer) : EncodeLoop :=
  if 30 ≤ s.sinceCheck + 1 then
    if s.rotationChanged device then
      { s with sinceCheck := 0, place := .returned true (some b) }.release b
    else { s with sinceCheck := 0, place := .checked b }
  else { s with sinceCheck := s.sinceCheck + 1, place := .checked b }

def step (device : Int × Int) (s : EncodeLoop) : EncodeAct → Option EncodeLoop
  | .display size => some { s with display := size }
  | .dequeue (.info _) =>
    match s.place with
    | .top => some { s with place := .idle }
    | _ => none
  | .dequeue (.buffer b) =>
    match s.place with
    | .top => some { s with place := .dequeued b, dequeued := s.dequeued ++ [b] }
    | _ => none
  | .check =>
    match s.place with
    | .idle =>
      some { s with place := if s.rotationChanged device then .returned true none else .top }
    | .dequeued b => some (s.checkBuffer device b)
    | _ => none
  | .process ok =>
    match s.place with
    | .checked b => some (s.process b ok)
    | _ => none

end EncodeLoop

/-- The loop of an encoder for a display of the size `device`. -/
def encodeLts (device display : Int × Int) : Lts EncodeLoop EncodeAct :=
  { init := .init display, step := EncodeLoop.step device }

namespace EncodeLoop

variable {device : Int × Int} {s s' : EncodeLoop} {b : OutputBuffer}

/-! ## What an act does -/

/-- The steps, each from the place where the loop takes it. -/
inductive Moves (device : Int × Int) (s : EncodeLoop) : EncodeAct → EncodeLoop → Prop where
  | display (size : Int × Int) : Moves device s (.display size) { s with display := size }
  | info (code : Int) (hplace : s.place = .top) :
      Moves device s (.dequeue (.info code)) { s with place := .idle }
  | buffer (b : OutputBuffer) (hplace : s.place = .top) :
      Moves device s (.dequeue (.buffer b))
        { s with place := .dequeued b, dequeued := s.dequeued ++ [b] }
  | idle (hplace : s.place = .idle) :
      Moves device s .check
        { s with place := if s.rotationChanged device then .returned true none else .top }
  | check (b : OutputBuffer) (hplace : s.place = .dequeued b) :
      Moves device s .check (s.checkBuffer device b)
  | process (b : OutputBuffer) (ok : Bool) (hplace : s.place = .checked b) :
      Moves device s (.process ok) (s.process b ok)

theorem moves_of_step {a : EncodeAct} (hs : step device s a = some s') : Moves device s a s' := by
  cases a with
  | display size =>
    cases hs
    exact .display size
  | dequeue result =>
    cases result with
    | info code =>
      simp only [step] at hs
      split at hs
      · cases hs
        exact .info code ‹_›
      · cases hs
    | buffer b =>
      simp only [step] at hs
      split at hs
      · cases hs
        exact .buffer b ‹_›
      · cases hs
  | check =>
    simp only [step] at hs
    split at hs
    · cases hs
      exact .idle ‹_›
    · cases hs
      exact .check _ ‹_›
    · cases hs
  | process ok =>
    simp only [step] at hs
    split at hs
    · cases hs
      exact .process _ ok ‹_›
    · cases hs

/-! ## The packet of a buffer -/

theorem size_toNat (b : OutputBuffer) : (UInt32.ofNat b.size).toNat = b.payload.length := by
  have hfits := b.fits
  rw [UInt32.toNat_ofNat', b.length_payload, Nat.mod_eq_of_lt (by omega)]

theorem length_copied (s : EncodeLoop) (b : OutputBuffer) :
    packetHdr + b.size ≤ (s.copied b).length := by
  unfold copied
  rw [length_patch]
  · split
    · rw [List.length_replicate]
    · omega
  · rw [b.length_payload]
    split
    · rw [List.length_replicate]
    · omega

theorem length_headed (s : EncodeLoop) (b : OutputBuffer) :
    packetHdr ≤ (headed b (s.copied b)).length := by
  have hcopied := length_copied s b
  have hflags : (patch (s.copied b) 0
      (bytes64 (packetFlags b.config b.key b.ptsUs))).length = (s.copied b).length := by
    refine length_patch ?_
    show 0 + 8 ≤ _
    simp only [packetHdr] at hcopied
    omega
  rw [headed, length_patch, hflags]
  · omega
  · rw [hflags, length_bytes32]
    simp only [packetHdr] at hcopied
    omega

/-- Whatever the array held, the packet is that of the buffer. -/
theorem writePacket_copied (h : packetHdr ≤ s.buffer.length) (b : OutputBuffer) :
    writePacket b.config b.key b.ptsUs (s.copied b) (UInt32.ofNat b.size) = b.wire := by
  simp only [copied, patch]
  refine writePacket_eq b.config b.key b.ptsUs _ ?_ (size_toNat b)
  rw [List.length_take]
  split
  · rw [List.length_replicate]
    omega
  · omega

/-! ## What the loop has done so far -/

/-- There is room for a header in the array, and a look at the display is due within
thirty buffers; the buffers but the one the loop holds have been released, in order;
and those that are settled have become packets, if they were to. -/
structure Inv (s : EncodeLoop) : Prop where
  room : packetHdr ≤ s.buffer.length
  due : s.sinceCheck < 30
  releases : s.dequeued.map (·.index) = s.released ++ s.place.holding.map (·.index)
  packets : ∃ settled, s.dequeued = settled ++ s.place.pending ∧
    s.written = (settled.filter OutputBuffer.wanted).map OutputBuffer.wire

theorem inv_init (display : Int × Int) : (init display).Inv where
  room := by
    rw [init, List.length_replicate]
    omega
  due := (by decide : 0 < 30)
  releases := rfl
  packets := ⟨[], rfl, rfl⟩

/-- A step that only moves on. -/
theorem Inv.move (h : s.Inv) {place : Place} {sinceCheck : Nat} (hdue : sinceCheck < 30)
    (hholding : place.holding = s.place.holding) (hpending : place.pending = s.place.pending) :
    Inv { s with place := place, sinceCheck := sinceCheck } :=
  ⟨h.room, hdue, hholding ▸ h.releases, hpending ▸ h.packets⟩

theorem Inv.dequeue (h : s.Inv) (hplace : s.place = .top) (b : OutputBuffer) :
    Inv { s with place := .dequeued b, dequeued := s.dequeued ++ [b] } := by
  obtain ⟨hroom, hdue, hreleases, settled, hdequeued, hwritten⟩ := h
  rw [hplace] at hreleases hdequeued
  simp only [Place.holding, Place.pending, List.map_nil, List.append_nil] at hreleases hdequeued
  refine ⟨hroom, hdue, ?_, settled, ?_, hwritten⟩
  · simp [Place.holding, hreleases]
  · simp [Place.pending, hdequeued]

/-- The buffer the loop holds is released where the loop goes on or ends without it. -/
theorem Inv.releases_held (h : s.Inv) (hplace : s.place.holding = [b]) {place : Place}
    (hfree : place.holding = []) :
    s.dequeued.map (·.index) = (s.released ++ [b.index]) ++ place.holding.map (·.index) := by
  simpa [hplace, hfree] using h.releases

theorem Inv.checkBuffer (h : s.Inv) (hplace : s.place = .dequeued b) :
    (s.checkBuffer device b).Inv := by
  have hmove : ∀ n < 30, Inv { s with sinceCheck := n, place := .checked b } :=
    fun n hn => h.move hn (by rw [hplace]; rfl) (by rw [hplace]; rfl)
  have hpackets := h.packets
  rw [hplace] at hpackets
  unfold EncodeLoop.checkBuffer
  split
  · split
    · exact ⟨h.room, (by decide : 0 < 30), h.releases_held (by rw [hplace]; rfl) rfl, hpackets⟩
    · exact hmove 0 (by decide)
  · exact hmove _ (by omega)

/-- The buffer is a packet, or there was nothing to write of it, or its write failed. -/
theorem Inv.process (h : s.Inv) (hplace : s.place = .checked b) (ok : Bool) :
    (s.process b ok).Inv := by
  obtain ⟨settled, hdequeued, hwritten⟩ := h.packets
  have hheld : s.place.holding = [b] := by rw [hplace]; rfl
  have hpending : s.dequeued = settled ++ [b] := by rw [hdequeued, hplace]; rfl
  unfold EncodeLoop.process
  split
  · rename_i hwanted
    have hfilter : [b].filter OutputBuffer.wanted = [b] :=
      List.filter_eq_self.mpr fun c hc => List.mem_singleton.mp hc ▸ hwanted
    split
    · refine ⟨length_headed s b, h.due, h.releases_held hheld rfl, settled ++ [b], ?_, ?_⟩
      · exact hpending.trans (List.append_nil _).symm
      · show s.written ++ [_] = _
        rw [writePacket_copied h.room, hwritten, List.filter_append, List.map_append, hfilter]
        rfl
    · exact ⟨length_headed s b, h.due, h.releases_held hheld rfl, settled, hpending, hwritten⟩
  · rename_i hskip
    have hfilter : [b].filter OutputBuffer.wanted = [] := by
      refine List.filter_eq_nil_iff.mpr fun c hc => ?_
      rw [List.mem_singleton.mp hc]
      exact hskip
    have hsettled : s.written =
        ((settled ++ [b]).filter OutputBuffer.wanted).map OutputBuffer.wire := by
      rw [List.filter_append, hfilter, List.append_nil, hwritten]
    have hall : s.dequeued = settled ++ [b] ++ [] := hpending.trans (List.append_nil _).symm
    split
    · exact ⟨h.room, h.due, h.releases_held hheld rfl, settled ++ [b], hall, hsettled⟩
    · exact ⟨h.room, h.due, h.releases_held hheld rfl, settled ++ [b], hall, hsettled⟩

theorem Inv.step {a : EncodeAct} (h : s.Inv) (hs : step device s a = some s') : s'.Inv := by
  cases moves_of_step hs with
  | display size => exact ⟨h.room, h.due, h.releases, h.packets⟩
  | info code hplace => exact h.move h.due (by rw [hplace]; rfl) (by rw [hplace]; rfl)
  | buffer b hplace => exact h.dequeue hplace b
  | idle hplace =>
    cases s.rotationChanged device with
    | true => exact h.move h.due (by rw [hplace]; rfl) (by rw [hplace]; rfl)
    | false => exact h.move h.due (by rw [hplace]; rfl) (by rw [hplace]; rfl)
  | check b hplace => exact h.checkBuffer hplace
  | process b ok hplace => exact h.process hplace ok

theorem inv_run {display : Int × Int} {as : List EncodeAct}
    (h : (encodeLts device display).run (encodeLts device display).init as = some s) : s.Inv :=
  have hstep : ∀ s a s', Inv s → (encodeLts device display).step s a = some s' → Inv s' :=
    fun _ _ _ hs h => hs.step h
  Lts.invariant hstep (inv_init display) h

/-! ## Behind a rotation -/

/-- The packets that can still be written while the display has another size: those of
the buffers before the next look, and that of a buffer whose look is behind it. -/
def budget (s : EncodeLoop) : Nat :=
  match s.place with
  | .checked _ => 30 - s.sinceCheck
  | .returned _ _ | .threw _ => 0
  | _ => 29 - s.sinceCheck

theorem rotationChanged_of_ne (h : s.display ≠ device) : s.rotationChanged device = true := by
  by_contra hsame
  simp only [rotationChanged, Bool.or_eq_true, decide_eq_true_eq, not_or, not_not] at hsame
  exact h (Prod.ext hsame.1 hsame.2)

theorem budget_checkBuffer (hrotated : s.rotationChanged device = true)
    (hplace : s.place = .dequeued b) :
    (s.checkBuffer device b).written = s.written ∧
      (s.checkBuffer device b).budget ≤ s.budget := by
  have hs : s.budget = 29 - s.sinceCheck := by rw [budget, hplace]
  unfold checkBuffer
  rw [if_pos hrotated]
  split
  · exact ⟨rfl, Nat.zero_le _⟩
  · refine ⟨rfl, ?_⟩
    show 30 - (s.sinceCheck + 1) ≤ s.budget
    omega

theorem budget_process (hdue : s.sinceCheck < 30) (hplace : s.place = .checked b) (ok : Bool) :
    (s.process b ok).written.length + (s.process b ok).budget ≤ s.written.length + s.budget := by
  have hs : s.budget = 30 - s.sinceCheck := by rw [budget, hplace]
  unfold process
  split
  · split
    · show (s.written ++ [_]).length + (29 - s.sinceCheck) ≤ _
      rw [List.length_append, List.length_singleton]
      omega
    · exact Nat.add_le_add_left (Nat.zero_le _) _
  · split
    · exact Nat.add_le_add_left (Nat.zero_le _) _
    · show s.written.length + (29 - s.sinceCheck) ≤ _
      omega

theorem budget_step {a : EncodeAct} (h : s.Inv) (hdisplay : s.display ≠ device)
    (hs : step device s a = some s') :
    s'.written.length + s'.budget ≤ s.written.length + s.budget := by
  have hrotated := rotationChanged_of_ne hdisplay
  cases moves_of_step hs with
  | display size => exact Nat.le_refl _
  | info code hplace => simp only [budget, hplace, Nat.le_refl]
  | buffer b hplace => simp only [budget, hplace, Nat.le_refl]
  | idle hplace =>
    rw [hrotated]
    exact Nat.add_le_add_left (Nat.zero_le _) _
  | check b hplace =>
    obtain ⟨hwritten, hle⟩ := budget_checkBuffer hrotated hplace
    rw [hwritten]
    exact Nat.add_le_add_left hle _
  | process b ok hplace => exact budget_process h.due hplace ok

theorem display_checkBuffer (b : OutputBuffer) :
    (s.checkBuffer device b).display = s.display := by
  unfold checkBuffer
  split
  · split <;> rfl
  · rfl

theorem display_process (b : OutputBuffer) (ok : Bool) : (s.process b ok).display = s.display := by
  unfold process
  split
  · cases ok <;> rfl
  · split <;> rfl

theorem display_step {a : EncodeAct} (hdisplay : s.display ≠ device)
    (ha : ∀ size, a = .display size → size ≠ device) (hs : step device s a = some s') :
    s'.display ≠ device := by
  cases moves_of_step hs with
  | display size => exact ha size rfl
  | info | buffer | idle => exact hdisplay
  | check b => rwa [display_checkBuffer]
  | process b ok => rwa [display_process]

theorem budget_run {display : Int × Int} {as : List EncodeAct} (h : s.Inv)
    (hdisplay : s.display ≠ device) (has : ∀ size, .display size ∈ as → size ≠ device)
    (hrun : (encodeLts device display).run s as = some s') :
    s'.written.length + s'.budget ≤ s.written.length + s.budget := by
  have hmeets : (encodeLts device display).Meets
      (fun _ a => ∀ size, a = .display size → size ≠ device) s as :=
    Lts.meets_of_forall s fun a ha size heq => has size (heq ▸ ha)
  have hinv := Lts.invariant_on
    (I := fun t => t.Inv ∧ t.display ≠ device ∧
      t.written.length + t.budget ≤ s.written.length + s.budget)
    (fun t a t' ht ha hs => ⟨ht.1.step hs, display_step ht.2.1 ha hs,
      (budget_step ht.1 ht.2.1 hs).trans ht.2.2⟩)
    ⟨h, hdisplay, Nat.le_refl _⟩ hmeets hrun
  exact hinv.2.2

theorem budget_le (s : EncodeLoop) : s.budget ≤ 30 := by
  unfold budget
  split <;> omega

end EncodeLoop

open EncodeLoop

/-- **Every buffer is released once, and becomes a packet.** In every run of the loop the
buffers that were dequeued have been released, each once and in order, but for one the
loop still holds. The packets written are those of the buffers that are not empty and do
not end the stream, in order and with their own flags, times and data; only the last
buffer may be missing, which is still to come, was discarded for a rotation, or met a
socket that failed. While the display has another size than the encoder was made for,
at most thirty packets more are written. -/
theorem encode_loop_settles (device display : Int × Int) {as : List EncodeAct} {s : EncodeLoop}
    (h : (encodeLts device display).run (encodeLts device display).init as = some s) :
    s.dequeued.map (·.index) = s.released ++ s.place.holding.map (·.index) ∧
    (∃ settled, s.dequeued = settled ++ s.place.pending ∧
      s.written = (settled.filter OutputBuffer.wanted).map OutputBuffer.wire) ∧
    (s.display ≠ device → ∀ (bs : List EncodeAct) (t : EncodeLoop),
      (∀ size, .display size ∈ bs → size ≠ device) →
      (encodeLts device display).run s bs = some t → t.written.length ≤ s.written.length + 30) := by
  have hinv := inv_run h
  refine ⟨hinv.releases, hinv.packets, fun hdisplay bs t hbs hrun => ?_⟩
  have hle := budget_run hinv hdisplay hbs hrun
  have hbudget := budget_le s
  omega

/-- A key frame of two bytes, and the end of the stream. -/
def keyBuffer : OutputBuffer :=
  { index := 3, flags := 1, ptsUs := 5, bytes := [9, 7, 8], offset := 1, size := 2,
    inside := by decide, fits := by decide }

def lastBuffer : OutputBuffer :=
  { index := 0, flags := 4, ptsUs := 6, bytes := [], offset := 0, size := 0,
    inside := by decide, fits := by decide }

theorem encode_loop_settles_two :
    ∃ s, (encodeLts (1080, 2400) (1080, 2400)).run (encodeLts (1080, 2400) (1080, 2400)).init
        [.dequeue (.buffer keyBuffer), .check, .process true, .dequeue (.info (-1)), .check,
          .dequeue (.buffer lastBuffer), .check, .process true] = some s ∧
      s.released = [3, 0] ∧ s.written.length = 1 := by
  refine ⟨_, rfl, ?_⟩
  obtain ⟨hreleases, ⟨settled, hdequeued, hwritten⟩, -⟩ :=
    @encode_loop_settles (1080, 2400) (1080, 2400)
      [.dequeue (.buffer keyBuffer), .check, .process true, .dequeue (.info (-1)), .check,
        .dequeue (.buffer lastBuffer), .check, .process true] _ rfl
  have hall : settled = [keyBuffer, lastBuffer] := (List.append_nil _).symm.trans hdequeued.symm
  refine ⟨(List.append_nil _).symm.trans hreleases.symm, ?_⟩
  rw [hwritten, hall]
  decide

end RigControl.Server
