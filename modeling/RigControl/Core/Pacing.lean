import Mathlib.Data.Nat.Find
import RigControl.Core.Audio
import RigControl.Lib.Path

/-!
# The audio thread waits for the device

`rb_write_blocking` goes round its loop until the ring has taken its whole block, and a full
ring takes nothing before the device has read from it. The flag `running` is not looked at:
`rc_client_stop` clears it, wakes the thread if it is in a `read`, and joins it.
-/

namespace RigControl.Core

open RigControl.Lib

/-- The channels `rc_audio_create` takes from the meta. -/
def audioChannels (channels : UInt8) : Nat := if channels ≠ 0 then channels.toNat else 2

theorem audioChannels_pos (channels : UInt8) : 0 < audioChannels channels := by
  unfold audioChannels
  split
  · rename_i h
    rcases Nat.eq_zero_or_pos channels.toNat with h0 | hpos
    · exact absurd (UInt8.toNat_inj.mp h0) h
    · exact hpos
  · decide

/-- A step of the audio thread. -/
def AudioStep.ofWriter : AudioStep → Bool
  | .write _ _ => true
  | .acquireWrite _ => true
  | .copyIn => true
  | .commitWrite => true
  | _ => false

/-- What a step does to the audio thread and the ring. -/
inductive WriterMove (bpf : Nat) (ring : RingBuffer UInt8) :
    WriterPc → AudioStep → RingBuffer UInt8 → WriterPc → Prop where
  /-- The device, or the flag. -/
  | other {pc : WriterPc} {l : AudioStep} (h : l.ofWriter = false) (m : Nat) :
      WriterMove bpf ring pc l (ring.commitRead m) pc
  | write (block : List UInt8) (frames : Nat) :
      WriterMove bpf ring .idle (.write block frames) ring (Writing.head ⟨block, 0, frames⟩)
  | failed (w : Writing) : WriterMove bpf ring (.loop w) (.acquireWrite none) ring .idle
  | full (w : Writing) (h : ring.room = 0) :
      WriterMove bpf ring (.loop w) (.acquireWrite (some 0)) ring (.loop w)
  | granted {w : Writing} {n : Nat} (hpos : 0 < n) (hn : n ≤ w.frames) (hroom : n * bpf ≤ ring.room) :
      WriterMove bpf ring (.loop w) (.acquireWrite (some n)) ring (.acquired w n ring.writePtr)
  | copyIn (w : Writing) (n pw : Nat) (src : List UInt8) :
      WriterMove bpf ring (.acquired w n pw) .copyIn (ring.store pw src) (.copied w n)
  | commit (w : Writing) (n buf : Nat) :
      WriterMove bpf ring (.copied w n) .commitWrite (ring.commitWrite (n * bpf))
        (Writing.head ⟨w.block, buf, w.frames - n⟩)

variable {s s' : Audio}

theorem head_parts (s : Audio) (c : Callback) :
    (s.head c).channels = s.channels ∧ (s.head c).ring = s.ring ∧ (s.head c).writer = s.writer := by
  unfold Audio.head
  split
  · exact ⟨rfl, rfl, rfl⟩
  · exact ⟨rfl, rfl, rfl⟩

theorem WriterMove.still {l : AudioStep} (hl : l.ofWriter = false) (hring : s'.ring = s.ring)
    (hwriter : s'.writer = s.writer) : WriterMove s.bpf s.ring s.writer l s'.ring s'.writer := by
  have h : WriterMove s.bpf s.ring s.writer l (s.ring.commitRead 0) s.writer := .other hl 0
  rw [RingBuffer.commitRead_zero] at h
  rwa [hring, hwriter]

theorem audioStep_move {l : AudioStep} (hs : audioStep s l = some s') :
    s'.channels = s.channels ∧ WriterMove s.bpf s.ring s.writer l s'.ring s'.writer := by
  cases l with
  | write block frames =>
    simp only [audioStep, Audio.write] at hs
    split at hs
    · rename_i hw
      split at hs
      · cases hs
        rw [hw]
        exact ⟨rfl, .write block frames⟩
      · cases hs
    · cases hs
  | acquireWrite n =>
    simp only [audioStep, Audio.acquireWrite] at hs
    split at hs
    · rename_i w hw
      cases hs
      rw [hw]
      exact ⟨rfl, .failed w⟩
    · rename_i w n hw
      split at hs
      · rename_i hgrant
        obtain ⟨hn, hrun, hfull⟩ := hgrant
        cases hs
        rw [hw]
        rcases Nat.eq_zero_or_pos n with rfl | hpos
        · exact ⟨rfl, .full w (hfull rfl)⟩
        · simp only [Nat.pos_iff_ne_zero.mp hpos, if_false]
          exact ⟨trivial, .granted hpos hn hrun.1⟩
      · cases hs
    · cases hs
  | copyIn =>
    simp only [audioStep, Audio.copyIn] at hs
    split at hs
    · rename_i w n pw hw
      cases hs
      rw [hw]
      exact ⟨rfl, .copyIn w n pw _⟩
    · cases hs
  | commitWrite =>
    simp only [audioStep, Audio.commitWrite] at hs
    split at hs
    · rename_i w n hw
      cases hs
      rw [hw]
      exact ⟨rfl, .commit w n _⟩
    · cases hs
  | callback out frameCount =>
    simp only [audioStep, Audio.callback] at hs
    split at hs
    · split at hs
      · cases hs
        obtain ⟨hch, hring, hwriter⟩ := head_parts s ⟨frameCount, out, 0, frameCount, false⟩
        exact ⟨hch, .still rfl hring hwriter⟩
      · cases hs
    · cases hs
  | acquireRead n =>
    simp only [audioStep, Audio.acquireRead] at hs
    split at hs
    · cases hs
      exact ⟨rfl, .still rfl rfl rfl⟩
    · split at hs
      · cases hs
        split
        · exact ⟨rfl, .still rfl rfl rfl⟩
        · exact ⟨rfl, .still rfl rfl rfl⟩
      · cases hs
    · cases hs
  | copyOut =>
    simp only [audioStep, Audio.copyOut] at hs
    split at hs
    · cases hs
      exact ⟨rfl, .still rfl rfl rfl⟩
    · cases hs
  | commitRead =>
    simp only [audioStep, Audio.commitRead] at hs
    split at hs
    · rename_i c n _
      cases hs
      obtain ⟨hch, hring, hwriter⟩ := head_parts { s with ring := s.ring.commitRead (n * s.bpf) }
        { c with dst := c.dst + n * s.bpf, remaining := c.remaining - n }
      rw [hring, hwriter]
      exact ⟨hch, .other rfl _⟩
    · cases hs
  | stop =>
    cases hs
    exact ⟨rfl, .still rfl rfl rfl⟩

/-! ## One call -/

/-- The bytes a call has not committed yet. -/
def WriterPc.left (bpf : Nat) : WriterPc → Nat
  | .idle => 0
  | .loop w => w.frames * bpf
  | .acquired w _ _ => w.frames * bpf
  | .copied w _ => w.frames * bpf

/-- A call that is not over has frames left, and room for those it was granted. -/
def CallOk (bpf : Nat) (ring : RingBuffer UInt8) : WriterPc → Prop
  | .idle => True
  | .loop w => 0 < w.frames
  | .acquired w n _ => 0 < n ∧ n ≤ w.frames ∧ n * bpf ≤ ring.room
  | .copied w n => 0 < n ∧ n ≤ w.frames ∧ n * bpf ≤ ring.room

/-- How far a call is from its end, as long as the ring is not full. -/
def WriterPc.turns : WriterPc → Nat
  | .idle => 0
  | .loop w => 3 * w.frames + 2
  | .acquired w _ _ => 3 * w.frames + 1
  | .copied w _ => 3 * w.frames

variable {bpf : Nat} {ring ring' : RingBuffer UInt8} {pc pc' : WriterPc} {l : AudioStep}

theorem granted_head (w : Writing) : CallOk bpf ring w.head := by
  unfold Writing.head
  split
  · trivial
  · rename_i h
    exact Nat.pos_of_ne_zero h

theorem left_head (w : Writing) : w.head.left bpf = w.frames * bpf := by
  unfold Writing.head
  split
  · rename_i h
    rw [h, Nat.zero_mul]
    rfl
  · rfl

theorem CallOk.move (h : CallOk bpf ring pc) (hm : WriterMove bpf ring pc l ring' pc') :
    CallOk bpf ring' pc' := by
  cases hm with
  | other hl m =>
    have hroom := ring.room_le_commitRead m
    cases pc with
    | idle => trivial
    | loop w => exact h
    | acquired w n pw => exact ⟨h.1, h.2.1, Nat.le_trans h.2.2 hroom⟩
    | copied w n => exact ⟨h.1, h.2.1, Nat.le_trans h.2.2 hroom⟩
  | write block frames => exact granted_head _
  | failed w => trivial
  | full w hfull => exact h
  | granted hpos hn hroom => exact ⟨hpos, hn, hroom⟩
  | copyIn w n pw src => exact h
  | commit w n buf => exact granted_head _

/-- The ring keeps its size, and what was read stays read. -/
theorem WriterMove.ring_le (hm : WriterMove bpf ring pc l ring' pc') :
    ring'.size = ring.size ∧ ring.rd ≤ ring'.rd := by
  cases hm with
  | other hl m =>
    refine ⟨RingBuffer.commitRead_size, ?_⟩
    unfold RingBuffer.commitRead
    split
    · exact Nat.le_add_right _ _
    · exact Nat.le_refl _
  | commit w n buf =>
    refine ⟨RingBuffer.commitWrite_size, ?_⟩
    unfold RingBuffer.commitWrite
    split <;> exact Nat.le_refl _
  | _ => exact ⟨rfl, Nat.le_refl _⟩

/-- Within a call, what is committed is no longer left. -/
theorem WriterMove.account (hm : WriterMove bpf ring pc l ring' pc') (h : CallOk bpf ring pc)
    (hbusy : pc ≠ .idle) (hl : l ≠ .acquireWrite none) :
    ring'.wr + pc'.left bpf = ring.wr + pc.left bpf := by
  cases hm with
  | other hl m =>
    have hwr : (ring.commitRead m).wr = ring.wr := by
      unfold RingBuffer.commitRead
      split <;> rfl
    rw [hwr]
  | write block frames => exact absurd rfl hbusy
  | failed w => exact absurd rfl hl
  | full w hfull => rfl
  | granted hpos hn hroom => rfl
  | copyIn w n pw src => rfl
  | commit w n buf =>
    obtain ⟨-, hn, hroom⟩ := h
    obtain ⟨-, -, -, hwr⟩ := RingBuffer.commitWrite_eq hroom
    rw [hwr, left_head]
    have hle : n * bpf ≤ w.frames * bpf := Nat.mul_le_mul_right _ hn
    simp only [WriterPc.left, Nat.sub_mul]
    omega

theorem turns_head (w : Writing) : w.head.turns ≤ 3 * w.frames + 2 := by
  unfold Writing.head
  split
  · exact Nat.zero_le _
  · exact Nat.le_refl _

/-- A step of a call brings it nearer to its end, unless the ring is full. -/
theorem WriterMove.turns_lt (hm : WriterMove bpf ring pc l ring' pc') (h : CallOk bpf ring pc)
    (hbusy : pc ≠ .idle) (hroom : ring.room ≠ 0) :
    pc'.turns ≤ pc.turns ∧ (l.ofWriter = true → pc'.turns < pc.turns) := by
  have hlt : ∀ {a b : Nat}, a < b → a ≤ b ∧ (l.ofWriter = true → a < b) := fun h =>
    ⟨Nat.le_of_lt h, fun _ => h⟩
  cases hm with
  | other hl m =>
    refine ⟨Nat.le_refl _, fun hown => ?_⟩
    rw [hl] at hown
    cases hown
  | write block frames => exact absurd rfl hbusy
  | failed w => exact hlt (Nat.succ_pos _)
  | full w hfull => exact absurd hfull hroom
  | granted hpos hn hrun => exact hlt (Nat.lt_succ_self _)
  | copyIn w n pw src => exact hlt (Nat.lt_succ_self _)
  | commit w n buf =>
    obtain ⟨hpos, hn, -⟩ := h
    have hhead := turns_head ⟨w.block, buf, w.frames - n⟩
    refine hlt (Nat.lt_of_le_of_lt hhead ?_)
    simp only [WriterPc.turns]
    omega

/-! ## Along a run -/

variable {channels : UInt8} {frames : Nat} {mem : Nat → UInt8} {s : Nat → Audio}
  {a : Nat → AudioStep}

section

variable (h : (audio (audioChannels channels) frames mem).Path s a)

include h

theorem path_channels (n : Nat) : (s n).channels = audioChannels channels :=
  h.invariant (I := fun s => s.channels = audioChannels channels) rfl
    (fun _ _ _ hs hstep => (audioStep_move hstep).1.trans hs) n

theorem path_bpf (m n : Nat) : (s m).bpf = (s n).bpf := by
  rw [Audio.bpf, Audio.bpf, path_channels h, path_channels h]

theorem path_bpf_pos (n : Nat) : 0 < (s n).bpf := by
  rw [Audio.bpf, path_channels h]
  exact Nat.mul_pos (audioChannels_pos channels) (by decide)

theorem path_move (n : Nat) :
    WriterMove (s n).bpf (s n).ring (s n).writer (a n) (s (n + 1)).ring (s (n + 1)).writer :=
  (audioStep_move (h.step n)).2

theorem path_callOk (n : Nat) : CallOk (s n).bpf (s n).ring (s n).writer := by
  induction n with
  | zero =>
    rw [h.init]
    trivial
  | succ n ih =>
    rw [path_bpf h (n + 1) n]
    exact ih.move (path_move h n)

theorem path_size (m n : Nat) : (s m).ring.size = (s n).ring.size := by
  have hsize : ∀ n, (s n).ring.size = (s 0).ring.size := by
    intro n
    induction n with
    | zero => rfl
    | succ n ih => exact (path_move h n).ring_le.1.trans ih
  rw [hsize, hsize n]

theorem path_rd {m n : Nat} (hmn : m ≤ n) : (s m).ring.rd ≤ (s n).ring.rd :=
  Lts.stays (P := fun i => (s m).ring.rd ≤ (s i).ring.rd)
    (fun i _ hi => Nat.le_trans hi (path_move h i).ring_le.2) (Nat.le_refl _) hmn

end

/-- Within a call, what is committed is no longer left. -/
theorem path_account (h : (audio (audioChannels channels) frames mem).Path s a) {k m : Nat}
    (hkm : k ≤ m)
    (hbusy : ∀ i, k ≤ i → i < m → (s i).writer ≠ .idle ∧ a i ≠ .acquireWrite none) :
    (s m).ring.wr + (s m).writer.left (s m).bpf = (s k).ring.wr + (s k).writer.left (s k).bpf := by
  induction hkm with
  | refl => rfl
  | @step m hm ih =>
    obtain ⟨hcall, hworks⟩ := hbusy m hm (Nat.lt_succ_self m)
    rw [← ih fun i hi him => hbusy i hi (Nat.lt_succ_of_lt him), path_bpf h (m + 1) m]
    exact (path_move h m).account (path_callOk h m) hcall hworks

/-- What is left of the call at `k` fits into the ring as it is then, and the room the device
makes by `m`. -/
def Drained (s : Nat → Audio) (k m : Nat) : Prop :=
  (s k).writer.left (s k).bpf + (s k).ring.rd ≤ (s k).ring.room + (s m).ring.rd

/-- A call that is over has fitted. -/
theorem drained_of_ended (h : (audio (audioChannels channels) frames mem).Path s a) {k m : Nat}
    (hkm : k ≤ m) (hend : (s m).writer = .idle)
    (hbusy : ∀ i, k ≤ i → i < m → (s i).writer ≠ .idle ∧ a i ≠ .acquireWrite none) :
    Drained s k m := by
  have haccount := path_account h hkm hbusy
  have hsize := path_size h m k
  have hsum := (s k).ring.avail_add_room
  have hfits := (s m).ring.fits
  have hle := (s k).ring.le
  have hleft : (s m).writer.left (s m).bpf = 0 := by
    rw [hend]
    rfl
  unfold Drained
  unfold RingBuffer.avail at hsum
  omega

/-- Once it fits, and as long as it goes on, the ring is not full. -/
theorem room_of_drained (h : (audio (audioChannels channels) frames mem).Path s a) {k m n : Nat}
    (hkm : k ≤ m) (hmn : m ≤ n) (hfit : Drained s k m)
    (hbusy : ∀ i, k ≤ i → (s i).writer ≠ .idle ∧ a i ≠ .acquireWrite none) :
    (s n).ring.room ≠ 0 := by
  have haccount := path_account h (Nat.le_trans hkm hmn) fun i hi _ => hbusy i hi
  have hsize := path_size h n k
  have hrd := path_rd h hmn
  have hsum := (s k).ring.avail_add_room
  have hsum' := (s n).ring.avail_add_room
  have hle := (s k).ring.le
  have hle' := (s n).ring.le
  have hpos : 0 < (s n).writer.left (s n).bpf := by
    have hgranted := path_callOk h n
    have hbpf := path_bpf_pos h n
    cases hw : (s n).writer with
    | idle => exact absurd hw (hbusy n (by omega)).1
    | loop w =>
      rw [hw] at hgranted
      exact Nat.mul_pos hgranted hbpf
    | acquired w i p =>
      rw [hw] at hgranted
      exact Nat.mul_pos (Nat.lt_of_lt_of_le hgranted.1 hgranted.2.1) hbpf
    | copied w i =>
      rw [hw] at hgranted
      exact Nat.mul_pos (Nat.lt_of_lt_of_le hgranted.1 hgranted.2.1) hbpf
  unfold Drained at hfit
  unfold RingBuffer.avail at hsum hsum'
  omega

/-- **A call of `rb_write_blocking` ends exactly if what is left of it fits into the room there
is and the room the device still makes, or an acquire fails.** `running` does not matter. -/
theorem write_blocking_ends_iff (h : (audio (audioChannels channels) frames mem).Path s a)
    (hfair : ∀ n, (s n).writer ≠ .idle → ∃ m, n ≤ m ∧ (a m).ofWriter = true) (k : Nat) :
    (∃ m, k ≤ m ∧ (s m).writer = .idle) ↔
      ∃ m, k ≤ m ∧ (a m = .acquireWrite none ∨ Drained s k m) := by
  refine ⟨?_, ?_⟩
  · intro hends
    obtain ⟨hk, hidle⟩ := Nat.find_spec hends
    have hfirst : ∀ i, k ≤ i → i < Nat.find hends → (s i).writer ≠ .idle := fun i hi hlt hi' =>
      Nat.find_min hends hlt ⟨hi, hi'⟩
    by_cases hfail : ∃ i, k ≤ i ∧ a i = .acquireWrite none
    · obtain ⟨i, hi, hai⟩ := hfail
      exact ⟨i, hi, .inl hai⟩
    · exact ⟨_, hk, .inr (drained_of_ended h hk hidle fun i hi hlt =>
        ⟨hfirst i hi hlt, fun hai => hfail ⟨i, hi, hai⟩⟩)⟩
  · rintro ⟨m, hkm, hwhy⟩
    by_contra hnever
    have hcall : ∀ i, k ≤ i → (s i).writer ≠ .idle := fun i hi hidle => hnever ⟨i, hi, hidle⟩
    have hworks : ∀ i, k ≤ i → a i ≠ .acquireWrite none := by
      intro i hi hai
      have hmove := path_move h i
      rw [hai] at hmove
      -- a failed acquire ends the call
      generalize hw : (s (i + 1)).writer = pc at hmove
      generalize (s (i + 1)).ring = ring at hmove
      generalize (s i).writer = before at hmove
      cases hmove with
      | other hl _ => cases hl
      | failed w => exact hcall (i + 1) (by omega) hw
    have hbusy := fun i hi => And.intro (hcall i hi) (hworks i hi)
    have hfit : Drained s k m := hwhy.resolve_left (hworks m hkm)
    have hturns : ∀ n, m ≤ n → (s (n + 1)).writer.turns ≤ (s n).writer.turns ∧
        ((a n).ofWriter = true → (s (n + 1)).writer.turns < (s n).writer.turns) := fun n hn =>
      (path_move h n).turns_lt (path_callOk h n) (hcall n (by omega))
        (room_of_drained h hkm hn hfit hbusy)
    exact @Lts.falls_finitely (fun n => (s n).writer.turns) (fun n => (a n).ofWriter = true) m
      (fun n hn => (hturns n hn).1) (fun n hn => (hturns n hn).2)
      fun n hn => hfair n (hcall n (by omega))

/-! ## A device that has stopped -/

section

variable (frames : Nat)

/-- So many frames of two channels. -/
def silent (frames : Nat) : List UInt8 := List.replicate (frames * 4) 0

/-- A block of one frame more than the ring takes: what fits fills it, and `rc_client_stop` is
called. -/
def stuckRun : List AudioStep :=
  [.write (silent (frames + 1)) (frames + 1), .acquireWrite (some frames), .copyIn, .commitWrite,
    .stop]

/-- From then on the device does nothing, and the audio thread sleeps and tries again. -/
def stuckStep (n : Nat) : AudioStep := ((stuckRun frames)[n]?).getD (.acquireWrite (some 0))

/-- The ring is full, and a frame is left. -/
def stuckEnd : Audio :=
  { channels := 2
    ring :=
      ((RingBuffer.empty (frames * 4) fun _ => 0).store 0 (silent frames)).commitWrite (frames * 4)
    running := false
    writer := .loop ⟨silent (frames + 1), frames * 2, 1⟩
    player := .idle
    written := silent (frames + 1)
    finished := [] }

def stuckAudio : Nat → Audio :=
  (audio (audioChannels 2) frames fun _ => 0).lasso (stuckRun frames) (stuckEnd frames)

variable {frames}

theorem stuckEnd_room : (stuckEnd frames).ring.room = 0 := by
  have hroom : frames * 4 ≤
      ((RingBuffer.empty (frames * 4) fun _ => (0 : UInt8)).store 0 (silent frames)).room :=
    Nat.le_refl _
  have hfits := (stuckEnd frames).ring.avail_add_room
  rw [show (stuckEnd frames).ring.avail = 0 + frames * 4 from RingBuffer.commitWrite_avail hroom,
    show (stuckEnd frames).ring.size = frames * 4 from RingBuffer.commitWrite_size] at hfits
  omega

theorem stuckRun_run (hpos : 0 < frames) :
    (audio (audioChannels 2) frames fun _ => 0).run (audio (audioChannels 2) frames fun _ => 0).init
      (stuckRun frames) = some (stuckEnd frames) := by
  have hblock : (silent (frames + 1)).length = (frames + 1) * 4 := List.length_replicate
  have hempty : (RingBuffer.empty (frames * 4) fun _ => (0 : UInt8)).WriteRun (frames * 4) := by
    refine ⟨Nat.le_refl _, ?_⟩
    show 0 % (frames * 4) + frames * 4 ≤ frames * 4
    rw [Nat.zero_mod, Nat.zero_add]
  have hfirst : (silent (frames + 1)).take (frames * 4) = silent frames := by
    rw [silent, List.take_replicate, Nat.min_eq_left (by omega)]
    rfl
  refine Lts.run_cons.mpr ⟨_, if_pos hblock, Lts.run_cons.mpr
    ⟨_, if_pos ⟨Nat.le_succ frames, hempty, fun h0 => absurd h0 (Nat.pos_iff_ne_zero.mp hpos)⟩, ?_⟩⟩
  rw [if_neg (Nat.pos_iff_ne_zero.mp hpos)]
  refine Lts.run_cons.mpr ⟨_, rfl, Lts.run_cons.mpr ⟨_, rfl, Lts.run_cons.mpr ⟨_, rfl, ?_⟩⟩⟩
  -- copy, commit and stop compute; what is left are the frame behind the block and the address
  have hleft : frames + 1 - frames = 1 := by omega
  have hptr : (RingBuffer.empty (frames * 4) fun _ => (0 : UInt8)).writePtr = 0 := Nat.zero_mod _
  show some (Audio.mk 2
    (((RingBuffer.empty (frames * 4) fun _ => 0).store
      (RingBuffer.empty (frames * 4) fun _ => (0 : UInt8)).writePtr
      ((silent (frames + 1)).take (frames * 4))).commitWrite (frames * 4)) false
    (Writing.head ⟨silent (frames + 1), 0 + frames * 2, frames + 1 - frames⟩) .idle
    ([] ++ silent (frames + 1)) []) = _
  rw [hptr, hfirst, hleft, Nat.zero_add, List.nil_append]
  rfl

theorem stuckEnd_stays (hpos : 0 < frames) :
    audioStep (stuckEnd frames) (.acquireWrite (some 0)) = some (stuckEnd frames) := by
  have hsize : (stuckEnd frames).ring.size = frames * 4 := RingBuffer.commitWrite_size
  have hptr : (stuckEnd frames).ring.writePtr < (stuckEnd frames).ring.size :=
    Nat.mod_lt _ (by omega)
  have hrun : (stuckEnd frames).ring.WriteRun (0 * (stuckEnd frames).bpf) := by
    rw [Nat.zero_mul]
    exact ⟨Nat.zero_le _, Nat.le_of_lt hptr⟩
  exact if_pos ⟨Nat.zero_le 1, hrun, fun _ => stuckEnd_room⟩

theorem stuckAudio_path (hpos : 0 < frames) :
    (audio (audioChannels 2) frames fun _ => 0).Path (stuckAudio frames) (stuckStep frames) :=
  Lts.lasso_path (stuckRun_run hpos) (stuckEnd_stays hpos)

theorem stuckAudio_fair (n : Nat) (_ : (stuckAudio frames n).writer ≠ .idle) :
    ∃ m, n ≤ m ∧ (stuckStep frames m).ofWriter = true :=
  ⟨n + 5, by omega, rfl⟩

theorem stuckAudio_stays (hpos : 0 < frames) {n : Nat} (hn : 5 ≤ n) :
    stuckAudio frames n = stuckEnd frames :=
  Lts.lasso_eq (stuckRun_run hpos) hn

end

theorem write_blocking_ends_stuck :
    (∃ m, 5 ≤ m ∧ (stuckAudio 2048 m).writer = .idle) ↔
      ∃ m, 5 ≤ m ∧ (stuckStep 2048 m = .acquireWrite none ∨ Drained (stuckAudio 2048) 5 m) :=
  write_blocking_ends_iff (stuckAudio_path (by decide)) stuckAudio_fair 5

/-- The ring is full, `running` is cleared, no callback comes: the call never ends. A ring of
`rc_audio_create` has room for 2048 frames at least. -/
theorem write_blocking_hangs :
    ¬ ∀ (channels : UInt8) (frames : Nat) (mem : Nat → UInt8) (s : Nat → Audio) (a : Nat → AudioStep),
      2048 ≤ frames → (audio (audioChannels channels) frames mem).Path s a →
      (∀ n, (s n).writer ≠ .idle → ∃ m, n ≤ m ∧ (a m).ofWriter = true) →
      ∀ k, (s k).running = false → ∃ m, k ≤ m ∧ (s m).writer = .idle := by
  intro h
  have hpos : 0 < 2048 := by decide
  obtain ⟨m, hm, hidle⟩ := h 2 2048 (fun _ => 0) (stuckAudio 2048) (stuckStep 2048) (Nat.le_refl _)
    (stuckAudio_path hpos) stuckAudio_fair 5 (by rw [stuckAudio_stays hpos (Nat.le_refl 5)]; rfl)
  rw [stuckAudio_stays hpos hm] at hidle
  cases hidle

end RigControl.Core
