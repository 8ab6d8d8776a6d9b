import RigControl.Lib.Lts
import RigControl.Lib.Ring

/-!
# Sound on its way to the device

`rb_write_blocking` and `audio_data_cb` of `audio.c`, with the ring between them. The audio
thread and the thread of the device each acquire a run of the ring, copy, and commit, and
every one of these is a step, so a run is an interleaving of the two threads.

Of `ma_pcm_rb` it is known that an acquire grants at most what is asked for, in one piece,
and nothing only when the ring is full, or empty; how much of it, and whether the call
works at all, is in the label of the step. Memory is in bytes: a sample has two, a frame a
sample for each channel.
-/

namespace RigControl.Core

open RigControl.Lib

/-- A call of `rb_write_blocking`: the bytes of its samples, where `buf` points, in samples,
and the frames that are left. -/
structure Writing where
  block : List UInt8
  buf : Nat
  frames : Nat
  deriving DecidableEq, Repr

/-- Where the audio thread is. -/
inductive WriterPc where
  | idle
  /-- At the acquire of the loop. -/
  | loop (w : Writing)
  | acquired (w : Writing) (n pw : Nat)
  /-- Behind `memcpy`. -/
  | copied (w : Writing) (n : Nat)
  deriving DecidableEq, Repr

/-- A call of `audio_data_cb`: the buffer of the device, where `dst` points in it, the frames
that remain, and whether the ring was found empty. -/
structure Callback where
  frameCount : Nat
  out : List UInt8
  dst : Nat
  remaining : Nat
  foundEmpty : Bool
  deriving DecidableEq, Repr

/-- Where the thread of the device is. -/
inductive PlayerPc where
  | idle
  | loop (c : Callback)
  | acquired (c : Callback) (n pread : Nat)
  | copied (c : Callback) (n : Nat)
  deriving DecidableEq, Repr

structure Audio where
  channels : Nat
  ring : RingBuffer UInt8
  /-- The flag of the client. -/
  running : Bool
  writer : WriterPc
  player : PlayerPc
  /-- All that was handed to `rb_write_blocking`, and the callbacks that have returned. -/
  written : List UInt8
  finished : List Callback

inductive AudioStep where
  | write (block : List UInt8) (frames : Nat)
  /-- The frames an acquire grants; none if it is not `MA_SUCCESS`. -/
  | acquireWrite (n : Option Nat)
  | copyIn
  | commitWrite
  | callback (out : List UInt8) (frameCount : Nat)
  | acquireRead (n : Option Nat)
  | copyOut
  | commitRead
  /-- `rc_client_stop` clears `running`. -/
  | stop
  deriving DecidableEq, Repr

def sampleSize : Nat := 2

def Audio.bpf (s : Audio) : Nat := s.channels * sampleSize

/-- `memcpy` or `memset` at `off`. -/
def blit (mem : List UInt8) (off : Nat) (src : List UInt8) : List UInt8 :=
  mem.take off ++ src ++ mem.drop (off + src.length)

/-! ## `rb_write_blocking` -/

/-- `while (frames > 0)`. -/
def Writing.head (w : Writing) : WriterPc := if w.frames = 0 then .idle else .loop w

/-- The bytes `buf` points to. -/
def Writing.rest (w : Writing) : List UInt8 := w.block.drop (w.buf * sampleSize)

def Audio.write (s : Audio) (block : List UInt8) (frames : Nat) : Option Audio :=
  match s.writer with
  | .idle =>
    if block.length = frames * s.bpf then
      some { s with writer := Writing.head ⟨block, 0, frames⟩, written := s.written ++ block }
    else none
  | _ => none

def Audio.acquireWrite (s : Audio) (n : Option Nat) : Option Audio :=
  match s.writer, n with
  | .loop _, none => some { s with writer := .idle }
  | .loop w, some n =>
    if n ≤ w.frames ∧ s.ring.WriteRun (n * s.bpf) ∧ (n = 0 → s.ring.room = 0) then
      -- a full ring: sleep, and try again
      some { s with writer := if n = 0 then .loop w else .acquired w n s.ring.writePtr }
    else none
  | _, _ => none

def Audio.copyIn (s : Audio) : Option Audio :=
  match s.writer with
  | .acquired w n pw =>
    some { s with ring := s.ring.store pw (w.rest.take (n * s.bpf)), writer := .copied w n }
  | _ => none

def Audio.commitWrite (s : Audio) : Option Audio :=
  match s.writer with
  | .copied w n =>
    some { s with
      ring := s.ring.commitWrite (n * s.bpf)
      writer := Writing.head { w with buf := w.buf + n * s.channels, frames := w.frames - n } }
  | _ => none

/-! ## `audio_data_cb` -/

/-- Behind the loop: what remains is silence. -/
def Callback.silence (c : Callback) (bpf : Nat) : Callback :=
  if 0 < c.remaining then { c with out := blit c.out c.dst (List.replicate (c.remaining * bpf) 0) }
  else c

def Audio.finish (s : Audio) (c : Callback) : Audio :=
  { s with player := .idle, finished := s.finished ++ [c.silence s.bpf] }

/-- `while (remaining > 0)`. -/
def Audio.head (s : Audio) (c : Callback) : Audio :=
  if c.remaining = 0 then s.finish c else { s with player := .loop c }

def Audio.callback (s : Audio) (out : List UInt8) (frameCount : Nat) : Option Audio :=
  match s.player with
  | .idle =>
    if out.length = frameCount * s.bpf then some (s.head ⟨frameCount, out, 0, frameCount, false⟩)
    else none
  | _ => none

def Audio.acquireRead (s : Audio) (n : Option Nat) : Option Audio :=
  match s.player, n with
  | .loop c, none => some (s.finish c)
  | .loop c, some n =>
    if n ≤ c.remaining ∧ s.ring.ReadRun (n * s.bpf) ∧ (n = 0 → s.ring.avail = 0) then
      some (if n = 0 then s.finish { c with foundEmpty := s.ring.avail = 0 }
        else { s with player := .acquired c n s.ring.readPtr })
    else none
  | _, _ => none

def Audio.copyOut (s : Audio) : Option Audio :=
  match s.player with
  | .acquired c n pread =>
    some { s with
      player := .copied { c with out := blit c.out c.dst (s.ring.load pread (n * s.bpf)) } n }
  | _ => none

def Audio.commitRead (s : Audio) : Option Audio :=
  match s.player with
  | .copied c n =>
    some (Audio.head { s with ring := s.ring.commitRead (n * s.bpf) }
      { c with dst := c.dst + n * s.bpf, remaining := c.remaining - n })
  | _ => none

def audioStep (s : Audio) : AudioStep → Option Audio
  | .write block frames => s.write block frames
  | .acquireWrite n => s.acquireWrite n
  | .copyIn => s.copyIn
  | .commitWrite => s.commitWrite
  | .callback out frameCount => s.callback out frameCount
  | .acquireRead n => s.acquireRead n
  | .copyOut => s.copyOut
  | .commitRead => s.commitRead
  | .stop => some { s with running := false }

/-- A player whose ring has room for so many frames. -/
def audio (channels frames : Nat) (mem : Nat → UInt8) : Lts Audio AudioStep where
  init :=
    { channels, ring := .empty (frames * (channels * sampleSize)) mem, running := true,
      writer := .idle, player := .idle, written := [], finished := [] }
  step := audioStep

/-- The acquire of the step, if it is one, works. -/
def AudioStep.succeeds : AudioStep → Bool
  | .acquireWrite n => n.isSome
  | .acquireRead n => n.isSome
  | _ => true

/-! ## What each thread relies on -/

def WriterPc.rest : WriterPc → List UInt8
  | .idle => []
  | .loop w => w.rest
  | .acquired w _ _ => w.rest
  | .copied w _ => w.rest

/-- Of the audio thread: there are as many bytes as frames; what is granted is free; and what
was copied lies behind the contents of the ring. -/
def WriterOk (bpf : Nat) (ring : RingBuffer UInt8) : WriterPc → Prop
  | .idle => True
  | .loop w => w.rest.length = w.frames * bpf
  | .acquired w n pw => w.rest.length = w.frames * bpf ∧ n ≤ w.frames ∧ pw = ring.writePtr ∧
      ring.WriteRun (n * bpf)
  | .copied w n => w.rest.length = w.frames * bpf ∧ n ≤ w.frames ∧ n * bpf ≤ ring.room ∧
      ring.Staged (w.rest.take (n * bpf))

/-- The part of the buffer before `dst` is whole frames, and the rest has room for what
remains. -/
structure Callback.Filling (bpf : Nat) (c : Callback) : Prop where
  le : c.remaining ≤ c.frameCount
  out : c.out.length = c.frameCount * bpf
  dst : c.dst = (c.frameCount - c.remaining) * bpf

/-- Of the thread of the device: what is granted is there, and what was copied is the first
of the contents of the ring. -/
def PlayerOk (bpf : Nat) (ring : RingBuffer UInt8) : PlayerPc → Prop
  | .idle => True
  | .loop c => c.Filling bpf
  | .acquired c n pread => c.Filling bpf ∧ n ≤ c.remaining ∧ pread = ring.readPtr ∧
      ring.ReadRun (n * bpf)
  | .copied c n => c.Filling bpf ∧ n ≤ c.remaining ∧ n * bpf ≤ ring.avail ∧
      (c.out.drop c.dst).take (n * bpf) = ring.contents.take (n * bpf)

variable {bpf : Nat} {ring : RingBuffer UInt8}

theorem Writing.head_rest (ring : RingBuffer UInt8) {w : Writing}
    (h : w.rest.length = w.frames * bpf) : w.head.rest = w.rest ∧ WriterOk bpf ring w.head := by
  unfold Writing.head
  split
  · rename_i h0
    rw [h0, Nat.zero_mul] at h
    exact ⟨(List.length_eq_zero_iff.mp h).symm, trivial⟩
  · exact ⟨rfl, h⟩

/-- There are as many bytes left as are granted. -/
theorem Writing.length_granted {w : Writing} {n : Nat} (h : w.rest.length = w.frames * bpf)
    (hn : n ≤ w.frames) : (w.rest.take (n * bpf)).length = n * bpf := by
  rw [List.length_take, h, Nat.min_eq_left (Nat.mul_le_mul_right _ hn)]

/-- The device only makes room. -/
theorem WriterOk.commitRead {pc : WriterPc} (h : WriterOk bpf ring pc) (m : Nat) :
    WriterOk bpf (ring.commitRead m) pc := by
  have hptr : (ring.commitRead m).writePtr = ring.writePtr := by
    unfold RingBuffer.commitRead
    split <;> rfl
  cases pc with
  | idle => trivial
  | loop w => exact h
  | acquired w n pw =>
    obtain ⟨hlen, hn, hpw, hrun⟩ := h
    exact ⟨hlen, hn, hpw.trans hptr.symm, hrun.commitRead m⟩
  | copied w n =>
    obtain ⟨hlen, hn, hle, hstaged⟩ := h
    exact ⟨hlen, hn, Nat.le_trans hle (ring.room_le_commitRead m), hstaged.commitRead m⟩

/-- A copy into a free run. -/
theorem PlayerOk.store {pc : PlayerPc} (h : PlayerOk bpf ring pc) {src : List UInt8}
    (hrun : ring.WriteRun src.length) : PlayerOk bpf (ring.store ring.writePtr src) pc := by
  cases pc with
  | idle => trivial
  | loop c => exact h
  | acquired c n p => exact h
  | copied c n =>
    obtain ⟨hfill, hn, hle, hout⟩ := h
    exact ⟨hfill, hn, hle, by rw [hout, RingBuffer.store_contents hrun]⟩

/-- What is taken in comes behind the contents. -/
theorem PlayerOk.commitWrite {pc : PlayerPc} (h : PlayerOk bpf ring pc) {src : List UInt8}
    (hstaged : ring.Staged src) (hroom : src.length ≤ ring.room) :
    PlayerOk bpf (ring.commitWrite src.length) pc := by
  have hptr : (ring.commitWrite src.length).readPtr = ring.readPtr := by
    unfold RingBuffer.commitWrite
    split <;> rfl
  cases pc with
  | idle => trivial
  | loop c => exact h
  | acquired c n p =>
    obtain ⟨hfill, hn, hp, hrun⟩ := h
    exact ⟨hfill, hn, hp.trans hptr.symm, hrun.commitWrite _⟩
  | copied c n =>
    obtain ⟨hfill, hn, hle, hout⟩ := h
    refine ⟨hfill, hn, ?_, ?_⟩
    · rw [RingBuffer.commitWrite_avail hroom]
      omega
    · rw [hout, RingBuffer.commitWrite_contents hstaged hroom,
        List.take_append_of_le_length (by simpa using hle)]

/-! ## What comes out -/

/-- What is in the buffer of a callback before the silence. -/
def Callback.sound (c : Callback) : List UInt8 := c.out.take c.dst

def PlayerPc.sound : PlayerPc → List UInt8
  | .idle => []
  | .loop c => c.sound
  | .acquired c _ _ => c.sound
  | .copied c _ => c.sound

/-- All that was output so far, without the silence. -/
def Audio.played (s : Audio) : List UInt8 := s.finished.flatMap Callback.sound ++ s.player.sound

/-- A callback has filled its buffer: whole frames, and behind them silence, if the ring was
found empty. -/
structure Callback.Filled (bpf : Nat) (c : Callback) : Prop extends c.Filling bpf where
  tail : c.out.drop c.dst = List.replicate (c.remaining * bpf) 0
  found : 0 < c.remaining → c.foundEmpty = true

theorem length_blit {mem src : List UInt8} {off : Nat} (h : off + src.length ≤ mem.length) :
    (blit mem off src).length = mem.length := by
  simp only [blit, List.length_append, List.length_take, List.length_drop]
  omega

theorem take_blit {mem : List UInt8} {off : Nat} (src : List UInt8) (h : off ≤ mem.length) :
    (blit mem off src).take off = mem.take off := by
  rw [blit, List.append_assoc, List.take_append_of_le_length (by simp [h]), List.take_take,
    Nat.min_self]

theorem drop_blit {mem : List UInt8} {off : Nat} (src : List UInt8) (h : off ≤ mem.length) :
    (blit mem off src).drop off = src ++ mem.drop (off + src.length) := by
  have hlen : (mem.take off).length = off := by simp [h]
  rw [blit, List.append_assoc, List.drop_left' hlen]

/-- `dst` and what remains reach to the end of the buffer. -/
theorem Callback.Filling.reach {c : Callback} (h : c.Filling bpf) :
    c.dst + c.remaining * bpf = c.out.length := by
  rw [h.out, h.dst, ← Nat.add_mul, Nat.sub_add_cancel h.le]

theorem Callback.silence_sound {c : Callback} (h : c.Filling bpf) :
    (c.silence bpf).sound = c.sound := by
  have hle : c.dst ≤ c.out.length := by
    have := h.reach
    omega
  unfold Callback.silence
  split
  · exact take_blit _ hle
  · rfl

theorem Callback.silence_filled {c : Callback} (h : c.Filling bpf)
    (hfound : 0 < c.remaining → c.foundEmpty = true) : (c.silence bpf).Filled bpf := by
  have hreach := h.reach
  have hle : c.dst ≤ c.out.length := by omega
  unfold Callback.silence
  split
  · refine ⟨⟨h.le, ?_, h.dst⟩, ?_, hfound⟩
    · exact (length_blit (by simpa using Nat.le_of_eq hreach)).trans h.out
    · refine (drop_blit _ hle).trans ?_
      rw [List.length_replicate, hreach, List.drop_length, List.append_nil]
  · have h0 : c.remaining = 0 := by omega
    rw [h0, Nat.zero_mul, Nat.add_zero] at hreach
    refine ⟨h, ?_, hfound⟩
    rw [h0, Nat.zero_mul, hreach, List.drop_length]
    rfl

/-! ## The invariant -/

/-- What was handed over is what was played, what is in the ring and what the audio thread
still has, in this order. -/
structure Audio.Inv (s : Audio) : Prop where
  writer : WriterOk s.bpf s.ring s.writer
  player : PlayerOk s.bpf s.ring s.player
  stream : s.written = s.played ++ s.ring.contents ++ s.writer.rest
  whole : s.bpf ∣ s.played.length
  filled : ∀ c ∈ s.finished, c.Filled s.bpf

namespace Audio

variable {s s' : Audio}

/-- The part of the audio thread, where it is known where that is. -/
theorem Inv.ofWriter (h : s.Inv) {pc : WriterPc} (hpc : s.writer = pc) :
    WriterOk s.bpf s.ring pc ∧ s.written = s.played ++ s.ring.contents ++ pc.rest :=
  hpc ▸ ⟨h.writer, h.stream⟩

/-- The part of the device. -/
theorem Inv.ofPlayer (h : s.Inv) {pc : PlayerPc} (hpc : s.player = pc) :
    PlayerOk s.bpf s.ring pc ∧
      s.written = s.finished.flatMap Callback.sound ++ pc.sound ++ s.ring.contents ++ s.writer.rest ∧
      s.bpf ∣ (s.finished.flatMap Callback.sound ++ pc.sound).length :=
  hpc ▸ ⟨h.player, h.stream, h.whole⟩

theorem Inv.write (h : s.Inv) {block : List UInt8} {frames : Nat}
    (hs : s.write block frames = some s') : s'.Inv := by
  unfold Audio.write at hs
  split at hs
  · rename_i hidle
    split at hs
    · rename_i hlen
      cases hs
      have hnew : (Writing.mk block 0 frames).rest = block := by simp [Writing.rest]
      obtain ⟨hrest, hok⟩ := Writing.head_rest s.ring
        (show (Writing.mk block 0 frames).rest.length = frames * s.bpf by rw [hnew]; exact hlen)
      refine ⟨hok, h.player, ?_, h.whole, h.filled⟩
      obtain ⟨-, hstream⟩ := h.ofWriter hidle
      show s.written ++ block = s.played ++ s.ring.contents ++ (Writing.mk block 0 frames).head.rest
      rw [hrest, hnew, hstream]
      simp [WriterPc.rest]
    · cases hs
  · cases hs

theorem Inv.acquireWrite (h : s.Inv) {n : Nat} (hs : s.acquireWrite (some n) = some s') : s'.Inv := by
  unfold Audio.acquireWrite at hs
  split at hs
  · rename_i heq
    cases heq
  · rename_i w m hw heq
    cases heq
    split at hs
    · rename_i hgrant
      obtain ⟨hn, hrun, -⟩ := hgrant
      cases hs
      obtain ⟨hlen, hstream⟩ := h.ofWriter hw
      by_cases h0 : n = 0
      · simp only [h0, if_true]
        exact ⟨hlen, h.player, hstream, h.whole, h.filled⟩
      · simp only [h0, if_false]
        exact ⟨⟨hlen, hn, rfl, hrun⟩, h.player, hstream, h.whole, h.filled⟩
    · cases hs
  · cases hs

theorem Inv.copyIn (h : s.Inv) (hs : s.copyIn = some s') : s'.Inv := by
  unfold Audio.copyIn at hs
  split at hs
  · rename_i w n pw hw
    cases hs
    obtain ⟨⟨hlen, hn, rfl, hrun⟩, hstream⟩ := h.ofWriter hw
    have htake := Writing.length_granted hlen hn
    rw [← htake] at hrun
    refine ⟨⟨hlen, hn, ?_, RingBuffer.store_staged hrun⟩, h.player.store hrun, ?_, h.whole, h.filled⟩
    · exact htake ▸ hrun.1
    · show s.written = s.played ++ (s.ring.store s.ring.writePtr _).contents ++ w.rest
      rw [RingBuffer.store_contents hrun]
      exact hstream
  · cases hs

theorem Inv.commitWrite (h : s.Inv) (hs : s.commitWrite = some s') : s'.Inv := by
  unfold Audio.commitWrite at hs
  split at hs
  · rename_i w n hw
    cases hs
    obtain ⟨⟨hlen, hn, hroom, hstaged⟩, hstream⟩ := h.ofWriter hw
    have htake := Writing.length_granted hlen hn
    have hroom' : (w.rest.take (n * s.bpf)).length ≤ s.ring.room := by rwa [htake]
    have hcontents := RingBuffer.commitWrite_contents hstaged hroom'
    have hplayer := h.player.commitWrite hstaged hroom'
    rw [htake] at hcontents hplayer
    -- `buf` moves on by the bytes that were copied
    have hrest : (Writing.mk w.block (w.buf + n * s.channels) (w.frames - n)).rest =
        w.rest.drop (n * s.bpf) := by
      simp only [Writing.rest, Audio.bpf, List.drop_drop, Nat.add_mul, Nat.mul_assoc]
    have hleft : (Writing.mk w.block (w.buf + n * s.channels) (w.frames - n)).rest.length =
        (w.frames - n) * s.bpf := by
      rw [hrest, List.length_drop, hlen, Nat.sub_mul]
    obtain ⟨hhead, hwriter⟩ := Writing.head_rest (s.ring.commitWrite (n * s.bpf)) hleft
    refine ⟨hwriter, hplayer, ?_, h.whole, h.filled⟩
    show s.written = s.played ++ (s.ring.commitWrite (n * s.bpf)).contents ++ WriterPc.rest (Writing.head _)
    rw [hhead, hrest, hcontents, ← List.append_assoc, List.append_assoc _ (w.rest.take _),
      List.take_append_drop]
    exact hstream
  · cases hs

/-- The callback returns. -/
theorem Inv.finish {c : Callback} (h : ({ s with player := .loop c } : Audio).Inv)
    (hfound : 0 < c.remaining → c.foundEmpty = true) : (s.finish c).Inv := by
  have hfill : c.Filling s.bpf := h.player
  have hplayed : (s.finish c).played = ({ s with player := .loop c } : Audio).played := by
    simp [Audio.played, Audio.finish, PlayerPc.sound, Callback.silence_sound hfill]
  refine ⟨h.writer, trivial, hplayed ▸ h.stream, hplayed ▸ h.whole, ?_⟩
  intro d hd
  rcases List.mem_append.mp hd with hd | hd
  · exact h.filled d hd
  · rw [List.mem_singleton.mp hd]
    exact Callback.silence_filled hfill hfound

theorem Inv.head {c : Callback} (h : ({ s with player := .loop c } : Audio).Inv) : (s.head c).Inv := by
  unfold Audio.head
  split
  · rename_i h0
    exact h.finish fun hpos => absurd hpos (by omega)
  · exact h

theorem Inv.callback (h : s.Inv) {out : List UInt8} {frameCount : Nat}
    (hs : s.callback out frameCount = some s') : s'.Inv := by
  unfold Audio.callback at hs
  split at hs
  · rename_i hidle
    split at hs
    · rename_i hlen
      cases hs
      have hplayed : ({ s with player := .loop ⟨frameCount, out, 0, frameCount, false⟩ } : Audio).played =
          s.played := by
        simp [Audio.played, PlayerPc.sound, Callback.sound, hidle]
      have hfill : (Callback.mk frameCount out 0 frameCount false).Filling s.bpf :=
        ⟨Nat.le_refl _, hlen, by simp⟩
      exact Inv.head ⟨h.writer, hfill, hplayed ▸ h.stream, hplayed ▸ h.whole, h.filled⟩
    · cases hs
  · cases hs

theorem Inv.acquireRead (h : s.Inv) {n : Nat} (hs : s.acquireRead (some n) = some s') : s'.Inv := by
  unfold Audio.acquireRead at hs
  split at hs
  · rename_i heq
    cases heq
  · rename_i c m hc heq
    cases heq
    split at hs
    · rename_i hgrant
      obtain ⟨hn, hrun, hempty⟩ := hgrant
      cases hs
      obtain ⟨hfill, hstream, hwhole⟩ := h.ofPlayer hc
      by_cases h0 : n = 0
      · simp only [h0, if_true]
        refine Inv.finish ⟨h.writer, ⟨hfill.le, hfill.out, hfill.dst⟩, hstream, hwhole, h.filled⟩ fun _ => ?_
        exact decide_eq_true (hempty h0)
      · simp only [h0, if_false]
        exact ⟨h.writer, ⟨hfill, hn, rfl, hrun⟩, hstream, hwhole, h.filled⟩
    · cases hs
  · cases hs

theorem Inv.copyOut (h : s.Inv) (hs : s.copyOut = some s') : s'.Inv := by
  unfold Audio.copyOut at hs
  split at hs
  · rename_i c n p hc
    cases hs
    obtain ⟨⟨hfill, hn, rfl, hrun⟩, hstream, hwhole⟩ := h.ofPlayer hc
    have hreach := hfill.reach
    have hload := RingBuffer.load_eq hrun
    have hle : n * s.bpf ≤ c.remaining * s.bpf := Nat.mul_le_mul_right _ hn
    have hsound : (blit c.out c.dst (s.ring.load s.ring.readPtr (n * s.bpf))).take c.dst =
        c.out.take c.dst := take_blit _ (by omega)
    refine ⟨h.writer, ⟨⟨hfill.le, ?_, hfill.dst⟩, hn, hrun.1, ?_⟩, ?_, ?_, h.filled⟩
    · exact (length_blit (by rw [RingBuffer.length_load]; omega)).trans hfill.out
    · show ((blit c.out c.dst _).drop c.dst).take (n * s.bpf) = s.ring.contents.take (n * s.bpf)
      rw [drop_blit _ (by omega), List.take_left' RingBuffer.length_load, hload]
    · rw [hstream]
      simp only [Audio.played, PlayerPc.sound, Callback.sound, hsound]
    · show s.bpf ∣ _
      simpa only [Audio.played, PlayerPc.sound, Callback.sound, hsound] using hwhole
  · cases hs

theorem Inv.commitRead (h : s.Inv) (hs : s.commitRead = some s') : s'.Inv := by
  unfold Audio.commitRead at hs
  split at hs
  · rename_i c n hc
    cases hs
    obtain ⟨⟨hfill, hn, hle, hout⟩, hstream, hwhole⟩ := h.ofPlayer hc
    have hcontents := RingBuffer.commitRead_contents hle
    -- the sound grows by what the ring gives up
    have hsound : c.out.take (c.dst + n * s.bpf) = c.out.take c.dst ++ s.ring.contents.take (n * s.bpf) := by
      rw [List.take_add, hout]
    have hlen : (s.ring.contents.take (n * s.bpf)).length = n * s.bpf := by simp [hle]
    refine Inv.head ⟨h.writer.commitRead _, ⟨?_, hfill.out, ?_⟩, ?_, ?_, h.filled⟩
    · exact Nat.le_trans (Nat.sub_le _ _) hfill.le
    · show c.dst + n * s.bpf = (c.frameCount - (c.remaining - n)) * s.bpf
      have hrem := hfill.le
      rw [hfill.dst, ← Nat.add_mul]
      congr 1
      omega
    · simp only [Audio.played, PlayerPc.sound, Callback.sound] at hstream ⊢
      rw [hcontents, hsound, hstream]
      simp only [List.append_assoc, List.append_cancel_left_eq]
      rw [← List.append_assoc, List.take_append_drop]
    · show s.bpf ∣ _
      simp only [Audio.played, PlayerPc.sound, Callback.sound] at hwhole ⊢
      rw [hsound, ← List.append_assoc, List.length_append, hlen]
      exact Nat.dvd_add hwhole (Nat.dvd_mul_left _ _)
  · cases hs

theorem Inv.step (h : s.Inv) {l : AudioStep} (hl : l.succeeds = true)
    (hs : audioStep s l = some s') : s'.Inv := by
  cases l with
  | write block frames => exact h.write hs
  | acquireWrite n =>
    obtain ⟨n, rfl⟩ := Option.isSome_iff_exists.mp hl
    exact h.acquireWrite hs
  | copyIn => exact h.copyIn hs
  | commitWrite => exact h.commitWrite hs
  | callback out frameCount => exact h.callback hs
  | acquireRead n =>
    obtain ⟨n, rfl⟩ := Option.isSome_iff_exists.mp hl
    exact h.acquireRead hs
  | copyOut => exact h.copyOut hs
  | commitRead => exact h.commitRead hs
  | stop =>
    cases hs
    exact ⟨h.writer, h.player, h.stream, h.whole, h.filled⟩

theorem inv_init (channels frames : Nat) (mem : Nat → UInt8) :
    (audio channels frames mem).init.Inv where
  writer := trivial
  player := trivial
  stream := by simp [audio, played, PlayerPc.sound, WriterPc.rest, RingBuffer.contents, RingBuffer.empty, RingBuffer.avail]
  whole := Nat.dvd_zero _
  filled := by simp [audio]

/-- What was output, silence apart, is whole frames and the first of what was written, in
order; and every callback has filled its buffer, with silence only behind the sound and only
if the ring was found empty. -/
structure Faithful (s : Audio) : Prop where
  inOrder : s.played <+: s.written
  whole : s.bpf ∣ s.played.length
  filled : ∀ c ∈ s.finished, c.Filled s.bpf

end Audio

/-- **However the two threads interleave, and however the ring cuts what they copy, the device
plays what was written.** -/
theorem audio_faithful (channels frames : Nat) (mem : Nat → UInt8) {as : List AudioStep}
    {s : Audio} (hgrant : ∀ l ∈ as, l.succeeds = true)
    (h : (audio channels frames mem).run (audio channels frames mem).init as = some s) :
    s.Faithful := by
  have hinv : s.Inv := Lts.invariant_on (C := fun _ l => l.succeeds = true) (I := Audio.Inv)
    (fun _ _ _ hs hl hstep => hs.step hl hstep) (Audio.inv_init channels frames mem)
    (Lts.meets_of_forall _ hgrant) h
  refine ⟨?_, hinv.whole, hinv.filled⟩
  rw [hinv.stream, List.append_assoc]
  exact List.prefix_append _ _

/-- Two frames, and then three that go round the end of a ring of three; the second callback
takes one more than there is. -/
def straddling : List AudioStep :=
  [.write [1, 0, 2, 0] 2, .acquireWrite (some 2), .copyIn, .commitWrite,
    .callback [9, 9, 9, 9] 2, .acquireRead (some 2), .copyOut, .commitRead,
    .write [3, 0, 4, 0, 5, 0] 3, .acquireWrite (some 1), .copyIn,
    .callback [9, 9, 9, 9, 9, 9, 9, 9] 4, .commitWrite, .acquireWrite (some 2),
    .acquireRead (some 1), .copyIn, .copyOut, .commitWrite, .commitRead,
    .acquireRead (some 2), .copyOut, .commitRead, .acquireRead (some 0)]

theorem audio_faithful_straddling : ∃ s : Audio,
    (audio 1 3 fun _ => 0xAA).run (audio 1 3 fun _ => 0xAA).init straddling = some s ∧ s.Faithful :=
  ⟨_, rfl, audio_faithful 1 3 (fun _ => 0xAA)
    (by decide : ∀ l ∈ straddling, l.succeeds = true) rfl⟩

example : ((audio 1 3 fun _ => 0xAA).run (audio 1 3 fun _ => 0xAA).init straddling).map
    (fun s => s.finished.map (·.out)) = some [[1, 0, 2, 0], [3, 0, 4, 0, 5, 0, 0, 0]] := rfl

end RigControl.Core
