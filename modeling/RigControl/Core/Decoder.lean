import RigControl.Core.Internal
import RigControl.Lib.CString

/-!
# The video decoder

`decoder.c` over libavcodec, which is a parameter: a `Codec` has a state of any type, and
says of every call what it returns and with which lists it called `get_format` on the way.
It is given the part of the decoder that `pick_hw_format` answers from, so it may act on
the answers.

`rc_decoder_feed` sends one packet and then receives until no frame is waiting. An
`AVERROR(EAGAIN)` of the send means that the packet was not taken, and the call goes on as
if it had been. `feeds_consumed_iff` says by what libavcodec returns (`Replies`) when that
loses a packet.
-/

namespace RigControl.Core

open RigControl.Lib

/-! ## Formats -/

/-- `enum AVPixelFormat`; of the others, what `av_pix_fmt_desc_get` says, and whether that
has the flag `AV_PIX_FMT_FLAG_HWACCEL`. -/
inductive AvPixelFormat where
  | yuv420p | yuvj420p | nv12 | videotoolbox | cuda | vaapi
  | other (n : Nat) (hwaccel : Option Bool)
  deriving DecidableEq, Repr

def AvPixelFormat.isSoftware : AvPixelFormat → Bool
  | .yuv420p => true
  | .yuvj420p => true
  | .nv12 => true
  | .other _ (some hwaccel) => !hwaccel
  | _ => false

inductive HwKind where
  | videotoolbox | cuda | vaapi
  deriving DecidableEq, Repr

def HwKind.pixFmt : HwKind → AvPixelFormat
  | .videotoolbox => .videotoolbox
  | .cuda => .cuda
  | .vaapi => .vaapi

/-- `av_hwdevice_get_type_name`. -/
def HwKind.typeName : HwKind → String
  | .videotoolbox => "videotoolbox"
  | .cuda => "cuda"
  | .vaapi => "vaapi"

/-- `HW_KINDS`. -/
def hwKinds (apple : Bool) : List HwKind :=
  (if apple then [.videotoolbox] else []) ++ [.cuda, .vaapi]

/-- The part of `struct rc_decoder` that `pick_hw_format` looks at: the backend of `hw_ctx`,
with which `hw_pix_fmt` is set, and `hw_failed`. -/
structure HwState where
  kind : Option HwKind
  failed : Bool
  deriving DecidableEq, Repr

def HwState.software : HwState := ⟨none, false⟩

/-- `AV_PIX_FMT_NONE` is none. -/
def HwState.pixFmt (d : HwState) : Option AvPixelFormat := d.kind.map HwKind.pixFmt

def pickHwFormat (d : HwState) (fmts : List AvPixelFormat) : Option AvPixelFormat × HwState :=
  if !d.failed && fmts.any (some · = d.pixFmt) then (d.pixFmt, d)
  else ((fmts.find? AvPixelFormat.isSoftware).or fmts.head?, { d with failed := true })

/-- The calls of `get_format` during a call of libavcodec. `pick_hw_format` is installed with
a hardware backend only. -/
def HwState.getFormats (d : HwState) (asked : List (List AvPixelFormat)) : HwState :=
  if d.kind.isSome then asked.foldl (fun d fmts => (pickHwFormat d fmts).2) d else d

/-! ## Creating a decoder -/

/-- What `rc_decoder_create` finds: the variable `RC_HWDEC`, which devices can be opened (by
the node, or none for the default), and whether everything else it needs is there. -/
structure DecoderEnv where
  apple : Bool
  hwdec : Option CString
  device : HwKind → Option Nat → Bool
  opens : Bool

def hwdecEnvDisabled (env : DecoderEnv) : Bool :=
  match env.hwdec with
  | none => false
  | some e => e = "off".toList || e = "0".toList || e = "no".toList || e = "sw".toList

def tryHwDevice (env : DecoderEnv) (kind : HwKind) : Bool :=
  env.device kind none ||
    (kind = .vaapi && (List.range 4).any fun i => env.device kind (some (128 + i)))

def rcDecoderCreate (env : DecoderEnv) (allowHw : Bool) : Option HwState :=
  let allowHw := allowHw && !hwdecEnvDisabled env
  let kind := if allowHw then (hwKinds env.apple).find? (tryHwDevice env) else none
  if env.opens then some ⟨kind, false⟩ else none

/-- `rc_decoder_is_hw`, of a decoder that is there. -/
def HwState.isHw (d : HwState) : Bool := d.kind.isSome && !d.failed

/-- `rc_decoder_hw_name`; no decoder is `NULL`. -/
def rcDecoderHwName : Option HwState → Option String
  | none => none
  | some d => if d.failed then none else d.kind.map HwKind.typeName

/-! ## Frames and packets -/

structure AvPacket where
  data : List UInt8
  pts : Int64
  dts : Int64
  deriving DecidableEq, Repr

/-- `AVFrame`; `AV_NOPTS_VALUE` is none. A plane comes with its `linesize`. -/
structure AvFrame where
  format : AvPixelFormat
  width : Int
  height : Int
  jpegRange : Bool
  bt709 : Bool
  planes : List (List UInt8 × Int)
  pts : Option Int64
  bestEffort : Option Int64
  deriving DecidableEq, Repr

inductive RcPixfmt where
  | i420 | nv12
  deriving DecidableEq, Repr

/-- `rc_frame`. -/
structure RcFrame where
  width : Int
  height : Int
  format : RcPixfmt
  fullRange : Bool
  bt709 : Bool
  planes : List (List UInt8 × Int)
  ptsUs : Int64
  recvMs : Int64
  deriving DecidableEq, Repr

def mapPixfmt : AvPixelFormat → Option RcPixfmt
  | .yuv420p => some .i420
  | .yuvj420p => some .i420
  | .nv12 => some .nv12
  | _ => none

def AvFrame.toRc (out : AvFrame) (pf : RcPixfmt) (recvMs : Int64) : RcFrame where
  width := out.width
  height := out.height
  format := pf
  fullRange := out.jpegRange || out.format = .yuvj420p
  bt709 := out.bt709
  planes := out.planes.take 4
  ptsUs := (out.pts.or out.bestEffort).getD 0
  recvMs := recvMs

/-- `av_frame_copy_props`, as far as it is read. -/
def AvFrame.copyProps (dst src : AvFrame) : AvFrame :=
  { dst with jpegRange := src.jpegRange, bt709 := src.bt709, pts := src.pts, bestEffort := src.bestEffort }

/-! ## Feeding it -/

inductive SendRet where
  | ok | eagain | error
  deriving DecidableEq, Repr

inductive ReceiveRet where
  | frame (f : AvFrame)
  | eagain | eof | error
  deriving DecidableEq, Repr

/-- What a call of libavcodec returns, the lists it called `get_format` with, and the state
it leaves. -/
structure Reply (ρ σ : Type) where
  ret : ρ
  asked : List (List AvPixelFormat)
  ctx : σ

/-- libavcodec: `avcodec_send_packet`, `avcodec_receive_frame` and
`av_hwframe_transfer_data`, with the buffer it may use again. -/
structure Codec (σ : Type) where
  send : HwState → AvPacket → σ → Reply SendRet σ
  receive : HwState → σ → Reply ReceiveRet σ
  transfer : Option AvFrame → AvFrame → σ → Option AvFrame × σ

/-- `struct rc_decoder`. -/
structure RcAvDecoder (σ : Type) where
  ctx : σ
  hw : HwState
  swFrame : Option AvFrame
  emittedUnsupported : Bool

variable {σ ρ : Type} (codec : Codec σ)

/-- The decoder after a call of libavcodec. -/
def RcAvDecoder.after (d : RcAvDecoder σ) (r : Reply ρ σ) : RcAvDecoder σ :=
  { d with ctx := r.ctx, hw := d.hw.getFormats r.asked }

/-- `av_hwframe_transfer_data` into `sw_frame`, and the properties behind it. -/
def RcAvDecoder.transfer (d : RcAvDecoder σ) (dst : Option AvFrame) (f : AvFrame) :
    Option AvFrame × RcAvDecoder σ :=
  let (out, ctx) := codec.transfer dst f d.ctx
  let out := out.map (·.copyProps f)
  (out, { d with ctx, swFrame := out })

/-- The frame to hand over; one of the GPU is downloaded. If the buffer of the frame before
cannot be used again, it is tried with a new one. -/
def RcAvDecoder.download (d : RcAvDecoder σ) (f : AvFrame) : Option AvFrame × RcAvDecoder σ :=
  if d.hw.kind.isSome && some f.format = d.hw.pixFmt then
    match d.swFrame.filter fun sw => sw.width = f.width && sw.height = f.height with
    | none => d.transfer codec none f
    | some sw =>
      match d.transfer codec (some sw) f with
      | (none, d) => d.transfer codec none f
      | r => r
  else (some f, d)

/-- The loop of `rc_decoder_feed`, for at most so many calls of `avcodec_receive_frame`. -/
def RcAvDecoder.drain (recvMs : Int64) : Nat → RcAvDecoder σ → List RcFrame →
    Option (RcStatus × List RcFrame × RcAvDecoder σ)
  | 0, _, _ => none
  | n + 1, d, frames =>
    let r := codec.receive d.hw d.ctx
    match r.ret with
    | .eagain => some (.ok, frames, d.after r)
    | .eof => some (.ok, frames, d.after r)
    | .error => some (.errDecode, frames, d.after r)
    | .frame f =>
      match (d.after r).download codec f with
      | (none, d) => some (.errDecode, frames, d)
      | (some out, d) =>
        match mapPixfmt out.format with
        | none => some (.errDecode, frames, { d with emittedUnsupported := true })
        | some pf => d.drain recvMs n (frames ++ [out.toRc pf recvMs])

/-- The arguments of a call; no data is `NULL` or of length 0. -/
structure FeedCall where
  data : List UInt8
  ptsUs : Int64
  recvMs : Int64
  deriving DecidableEq, Repr

def FeedCall.packet (c : FeedCall) : AvPacket := ⟨c.data, c.ptsUs, c.ptsUs⟩

/-- What a call returns: the status, whether libavcodec has taken the packet, and the frames
for the callback. -/
structure Fed (σ : Type) where
  status : RcStatus
  consumed : Bool
  frames : List RcFrame
  decoder : RcAvDecoder σ

def rcDecoderFeed (calls : Nat) (d : RcAvDecoder σ) (c : FeedCall) : Option (Fed σ) :=
  if c.data = [] then some ⟨.errInvalidArg, false, [], d⟩
  else
    let r := codec.send d.hw c.packet d.ctx
    match r.ret with
    | .error => some ⟨.errDecode, false, [], d.after r⟩
    | .eagain => ((d.after r).drain codec c.recvMs calls []).map fun (s, frames, d) => ⟨s, false, frames, d⟩
    | .ok => ((d.after r).drain codec c.recvMs calls []).map fun (s, frames, d) => ⟨s, true, frames, d⟩

/-- A call of a run: the decoder before it, the arguments, and what it returned. -/
structure FeedEvent (σ : Type) where
  before : RcAvDecoder σ
  call : FeedCall
  fed : Fed σ

/-- One call after the other, on one decoder. A call that does not return is the last. -/
def feeds (calls : Nat) : RcAvDecoder σ → List FeedCall → List (FeedEvent σ)
  | _, [] => []
  | d, c :: cs =>
    match rcDecoderFeed codec calls d c with
    | none => []
    | some r => ⟨d, c, r⟩ :: feeds calls r.decoder cs

/-! ## What libavcodec returns -/

/-- The answer to `avcodec_receive_frame`: a frame, with what the download makes of it;
`AVERROR(EAGAIN)` or `AVERROR_EOF`; another error. -/
inductive Received where
  | frame (out : Option AvFrame)
  | idle
  | error
  deriving DecidableEq, Repr

/-- An error, a download that fails, or a format that is not supported. -/
def Received.cuts : Received → Bool
  | .frame (some out) => (mapPixfmt out.format).isNone
  | .frame none => true
  | .idle => false
  | .error => true

/-- The answers in a call, up to the first that is no frame for the callback. -/
def RcAvDecoder.received : Nat → RcAvDecoder σ → List Received
  | 0, _ => []
  | n + 1, d =>
    let r := codec.receive d.hw d.ctx
    match r.ret with
    | .eagain => [.idle]
    | .eof => [.idle]
    | .error => [.error]
    | .frame f =>
      match (d.after r).download codec f with
      | (none, _) => [.frame none]
      | (some out, d) =>
        .frame (some out) :: if (mapPixfmt out.format).isSome then d.received n else []

/-- What libavcodec returns in a call. -/
structure Replies where
  send : SendRet
  received : List Received
  deriving DecidableEq, Repr

/-- The packet is not taken. -/
def Replies.refused (r : Replies) : Prop := r.send = .eagain

/-- The call ends early: an error, or a frame that cannot be handed over. -/
def Replies.endsEarly (r : Replies) : Prop := r.send = .error ∨ ∃ x ∈ r.received, x.cuts = true

instance (r : Replies) : Decidable r.refused := inferInstanceAs (Decidable (_ = _))

instance (r : Replies) : Decidable r.endsEarly := inferInstanceAs (Decidable (_ ∨ ∃ x ∈ _, _))

def replies (calls : Nat) (d : RcAvDecoder σ) (c : FeedCall) : Replies :=
  let r := codec.send d.hw c.packet d.ctx
  ⟨r.ret, if r.ret = .error then [] else (d.after r).received codec calls⟩

/-- What it returns in the calls of a run that have data for it, call by call. -/
def runReplies (calls : Nat) (d : RcAvDecoder σ) (cs : List FeedCall) : List Replies :=
  (feeds codec calls d cs).filterMap fun e =>
    if e.call.data = [] then none else some (replies codec calls e.before e.call)

/-- The loop that ends has ended well, or something cut it short. -/
theorem drain_status {recvMs : Int64} {n : Nat} {d d' : RcAvDecoder σ} {frames out : List RcFrame}
    {status : RcStatus} (h : d.drain codec recvMs n frames = some (status, out, d')) :
    status = .ok ↔ ¬∃ x ∈ d.received codec n, x.cuts = true := by
  induction n generalizing d frames with
  | zero => cases h
  | succ n ih =>
    unfold RcAvDecoder.drain at h
    unfold RcAvDecoder.received
    dsimp only at h ⊢
    cases hr : (codec.receive d.hw d.ctx).ret with
    | eagain =>
      rw [hr] at h
      cases h
      simp [Received.cuts]
    | eof =>
      rw [hr] at h
      cases h
      simp [Received.cuts]
    | error =>
      rw [hr] at h
      cases h
      simp [Received.cuts]
    | frame f =>
      rw [hr] at h
      dsimp only at h ⊢
      rcases hdl : (d.after (codec.receive d.hw d.ctx)).download codec f with ⟨_ | o, d1⟩ <;>
        rw [hdl] at h
      · cases h
        simp [Received.cuts]
      · dsimp only at h ⊢
        cases hpf : mapPixfmt o.format with
        | none =>
          rw [hpf] at h
          cases h
          simp [Received.cuts, hpf]
        | some pf =>
          rw [hpf] at h
          simpa [Received.cuts, hpf] using ih h

/-- A call that returns, by the replies: it had no data, it ended early, or it did not. -/
theorem feed_status {calls : Nat} {d : RcAvDecoder σ} {c : FeedCall} {r : Fed σ}
    (h : rcDecoderFeed codec calls d c = some r) (hne : c.data ≠ []) :
    (r.status = .ok ↔ ¬(replies codec calls d c).endsEarly) ∧
      (r.consumed = false ↔
        (replies codec calls d c).refused ∨ (replies codec calls d c).send = .error) := by
  unfold rcDecoderFeed at h
  rw [if_neg hne] at h
  unfold Replies.endsEarly Replies.refused replies
  dsimp only at h ⊢
  cases hsend : (codec.send d.hw c.packet d.ctx).ret with
  | error =>
    rw [hsend] at h
    cases h
    simp
  | ok =>
    rw [hsend] at h
    obtain ⟨⟨s, frames, d'⟩, hd, rfl⟩ := Option.map_eq_some_iff.mp h
    simpa using drain_status codec hd
  | eagain =>
    rw [hsend] at h
    obtain ⟨⟨s, frames, d'⟩, hd, rfl⟩ := Option.map_eq_some_iff.mp h
    simpa using drain_status codec hd

/-- Without data libavcodec is not called. -/
theorem feed_empty {calls : Nat} {d : RcAvDecoder σ} {c : FeedCall} {r : Fed σ}
    (h : rcDecoderFeed codec calls d c = some r) (hnil : c.data = []) :
    r.status = .errInvalidArg ∧ r.decoder = d := by
  unfold rcDecoderFeed at h
  rw [if_pos hnil] at h
  cases h
  exact ⟨rfl, rfl⟩

/-! ## A whole run -/

/-- What is known of libavcodec, for the states in which decoded output is `waiting`. -/
structure Codec.Lawful (waiting : σ → Prop) : Prop where
  refuses : ∀ hw pkt s, (codec.send hw pkt s).ret = .eagain → waiting s
  drained : ∀ hw s, ¬ waiting s → (codec.receive hw s).ret = .eagain

/-- `AVERROR(EAGAIN)` and `AVERROR_EOF` of `avcodec_receive_frame` say that nothing is
waiting. -/
def Codec.Tells (waiting : σ → Prop) : Prop :=
  ∀ hw s, (codec.receive hw s).ret = .eagain ∨ (codec.receive hw s).ret = .eof →
    ¬ waiting (codec.receive hw s).ctx

theorem feeds_mem {calls : Nat} {cs : List FeedCall} {d : RcAvDecoder σ} {e : FeedEvent σ}
    (h : e ∈ feeds codec calls d cs) : rcDecoderFeed codec calls e.before e.call = some e.fed := by
  induction cs generalizing d with
  | nil => cases h
  | cons c cs ih =>
    unfold feeds at h
    cases hf : rcDecoderFeed codec calls d c with
    | none =>
      rw [hf] at h
      cases h
    | some r =>
      rw [hf] at h
      rcases List.mem_cons.mp h with rfl | h
      · exact hf
      · exact ih h

/-! ### An early end comes before it -/

/-- The loop ends well only when libavcodec says that nothing is waiting. -/
theorem drain_ok_idle {waiting : σ → Prop} (htells : codec.Tells waiting) {recvMs : Int64}
    {n : Nat} {d d' : RcAvDecoder σ} {frames out : List RcFrame}
    (h : d.drain codec recvMs n frames = some (.ok, out, d')) :
    ¬ waiting d'.ctx := by
  induction n generalizing d frames with
  | zero => cases h
  | succ n ih =>
    unfold RcAvDecoder.drain at h
    dsimp only at h
    cases hr : (codec.receive d.hw d.ctx).ret with
    | eagain =>
      rw [hr] at h
      cases h
      exact htells _ _ (.inl hr)
    | eof =>
      rw [hr] at h
      cases h
      exact htells _ _ (.inr hr)
    | error =>
      rw [hr] at h
      cases h
    | frame f =>
      rw [hr] at h
      dsimp only at h
      rcases hdl : (d.after (codec.receive d.hw d.ctx)).download codec f with ⟨_ | o, d1⟩ <;>
        rw [hdl] at h
      · cases h
      · dsimp only at h
        cases hpf : mapPixfmt o.format with
        | none =>
          rw [hpf] at h
          cases h
        | some pf =>
          rw [hpf] at h
          exact ih h

/-- After a call that returns `RC_OK` nothing is waiting. -/
theorem feed_ok_idle {waiting : σ → Prop} (htells : codec.Tells waiting) {calls : Nat}
    {d : RcAvDecoder σ} {c : FeedCall} {r : Fed σ}
    (h : rcDecoderFeed codec calls d c = some r) (hok : r.status = .ok) :
    ¬ waiting r.decoder.ctx := by
  unfold rcDecoderFeed at h
  split at h
  · cases h
    cases hok
  · dsimp only at h
    split at h
    · cases h
      cases hok
    all_goals
      obtain ⟨⟨s, frames, d'⟩, hd, rfl⟩ := Option.map_eq_some_iff.mp h
      cases hok
      exact drain_ok_idle codec htells hd

theorem runReplies_cons {calls : Nat} {d : RcAvDecoder σ} {c : FeedCall} {f : Fed σ}
    (hf : rcDecoderFeed codec calls d c = some f) (cs : List FeedCall) :
    runReplies codec calls d (c :: cs) =
      if c.data = [] then runReplies codec calls f.decoder cs
      else replies codec calls d c :: runReplies codec calls f.decoder cs := by
  unfold runReplies
  rw [feeds, hf]
  dsimp only
  rw [List.filterMap_cons]
  by_cases hnil : c.data = []
  · simp only [hnil, if_true]
  · simp only [hnil, if_false]

/-- Behind a call that ended early, or with nothing waiting: where every call right behind
one that ended early ends early itself if its packet is refused, every refused one does. -/
theorem refused_behind {waiting : σ → Prop} (hlaw : codec.Lawful waiting)
    (htells : codec.Tells waiting) {calls : Nat} {cs : List FeedCall} {d : RcAvDecoder σ}
    (last : Replies) (hd : last.endsEarly ∨ ¬ waiting d.ctx)
    (h : ∀ r r', [r, r'] <:+: last :: runReplies codec calls d cs → r.endsEarly → r'.refused →
      r'.endsEarly) :
    ∀ r ∈ runReplies codec calls d cs, r.refused → r.endsEarly := by
  induction cs generalizing d last with
  | nil => exact fun r hr => (by cases hr)
  | cons c cs ih =>
    cases hf : rcDecoderFeed codec calls d c with
    | none =>
      have hnone : runReplies codec calls d (c :: cs) = [] := by
        rw [runReplies, feeds, hf]
        rfl
      rw [hnone]
      exact fun r hr => (by cases hr)
    | some f =>
      rw [runReplies_cons codec hf] at h ⊢
      by_cases hnil : c.data = []
      · rw [if_pos hnil] at h ⊢
        exact ih last ((feed_empty codec hf hnil).2.symm ▸ hd) h
      · rw [if_neg hnil] at h ⊢
        have hfirst : (replies codec calls d c).refused → (replies codec calls d c).endsEarly := by
          intro hrefused
          have hlast := hd.resolve_right (not_not.mpr (hlaw.refuses _ _ _ hrefused))
          exact h last _ (List.prefix_append [last, _] _).isInfix hlast hrefused
        rw [List.forall_mem_cons]
        refine ⟨hfirst, ih _ ?_ fun r r' hr => h r r' (List.infix_cons hr)⟩
        by_cases hearly : (replies codec calls d c).endsEarly
        · exact .inl hearly
        · exact .inr (feed_ok_idle codec htells hf ((feed_status codec hf hnil).1.mpr hearly))

theorem runReplies_mem {calls : Nat} {cs : List FeedCall} {d : RcAvDecoder σ} {r : Replies} :
    r ∈ runReplies codec calls d cs ↔ ∃ e ∈ feeds codec calls d cs, e.call.data ≠ [] ∧
      replies codec calls e.before e.call = r := by
  unfold runReplies
  rw [List.mem_filterMap]
  refine exists_congr fun e => and_congr_right fun _ => ?_
  by_cases hnil : e.call.data = [] <;> simp [hnil]

/-- **`RC_OK` means that the packet was taken, exactly where every call whose packet
libavcodec refuses ends early.** A packet is refused over output that is waiting. If
libavcodec says so when none is, and none is at the start, then it is a call before that
left it: only the calls right behind one that ended early have to be looked at. -/
theorem feeds_consumed_iff {waiting : σ → Prop} (hlaw : codec.Lawful waiting) (calls : Nat)
    (d : RcAvDecoder σ) (cs : List FeedCall) :
    ((∀ e ∈ feeds codec calls d cs, e.fed.status = .ok → e.fed.consumed = true) ↔
      ∀ r ∈ runReplies codec calls d cs, r.refused → r.endsEarly) ∧
    (codec.Tells waiting → ¬ waiting d.ctx →
      ((∀ e ∈ feeds codec calls d cs, e.fed.status = .ok → e.fed.consumed = true) ↔
        ∀ r r', [r, r'] <:+: runReplies codec calls d cs → r.endsEarly → r'.refused →
          r'.endsEarly)) := by
  have hall : (∀ e ∈ feeds codec calls d cs, e.fed.status = .ok → e.fed.consumed = true) ↔
      ∀ r ∈ runReplies codec calls d cs, r.refused → r.endsEarly := by
    constructor
    · intro h r hr hrefused
      obtain ⟨e, he, hne, rfl⟩ := (runReplies_mem codec).mp hr
      obtain ⟨hok, hconsumed⟩ := feed_status codec (feeds_mem codec he) hne
      by_contra hearly
      have htaken := h e he (hok.mpr hearly)
      rw [hconsumed.mpr (.inl hrefused)] at htaken
      cases htaken
    · intro h e he hstatus
      by_cases hnil : e.call.data = []
      · rw [(feed_empty codec (feeds_mem codec he) hnil).1] at hstatus
        cases hstatus
      · obtain ⟨hok, hconsumed⟩ := feed_status codec (feeds_mem codec he) hnil
        have hearly := hok.mp hstatus
        by_contra hleft
        rcases hconsumed.mp (by simpa using hleft) with hrefused | herror
        · exact hearly (h _ ((runReplies_mem codec).mpr ⟨e, he, hnil, rfl⟩) hrefused)
        · exact hearly (.inl herror)
  refine ⟨hall, fun htells hd => hall.trans ⟨fun h r r' hin _ => ?_, fun h => ?_⟩⟩
  · exact h r' (hin.subset (List.mem_cons_of_mem r List.mem_cons_self))
  · refine refused_behind codec hlaw htells ⟨.ok, []⟩ (.inr hd) fun r r' hin hearly => ?_
    rcases List.infix_cons_iff.mp hin with hstart | hin
    · rw [(List.cons_prefix_cons.mp hstart).1] at hearly
      simp [Replies.endsEarly] at hearly
    · exact h r r' hin hearly

/-- For each byte of a packet one output: 0 is an error, every other byte a frame. -/
def byteCodec : Codec (List UInt8) where
  send _ pkt queue := if queue = [] then ⟨.ok, [], pkt.data⟩ else ⟨.eagain, [], queue⟩
  receive _ queue :=
    match queue with
    | [] => ⟨.eagain, [], []⟩
    | b :: queue =>
      if b = 0 then ⟨.error, [], queue⟩
      else ⟨.frame ⟨.yuv420p, 1, 1, false, false, [([b], 1)], none, none⟩, [], queue⟩
  transfer _ f queue := (some f, queue)

def byteDecoder : RcAvDecoder (List UInt8) := ⟨[], .software, none, false⟩

theorem byteCodec_lawful : byteCodec.Lawful (· ≠ []) where
  refuses := by
    intro hw pkt queue h
    rintro rfl
    cases h
  drained := by
    intro hw queue h
    rw [not_not.mp h]
    rfl

/-- Two errors and no frame: the second packet is refused over the second error. -/
theorem feeds_consumed_bytes :
    ((feeds byteCodec 3 byteDecoder [⟨[0, 0], 0, 0⟩, ⟨[2], 0, 0⟩, ⟨[3], 0, 0⟩]).map fun e =>
        (e.fed.status, e.fed.consumed)) = [(.errDecode, true), (.errDecode, false), (.ok, true)] ∧
      ∀ e ∈ feeds byteCodec 3 byteDecoder [⟨[0, 0], 0, 0⟩, ⟨[2], 0, 0⟩, ⟨[3], 0, 0⟩],
        e.fed.status = .ok → e.fed.consumed = true :=
  ⟨rfl, (feeds_consumed_iff byteCodec byteCodec_lawful 3 byteDecoder _).1.mpr (by decide)⟩

/-- The first packet brings an error and a frame. The second is refused over that frame,
which is handed over in its place. -/
theorem feed_swallows :
    ¬ ∀ (σ : Type) (codec : Codec σ) (waiting : σ → Prop), codec.Lawful waiting →
      ∀ (calls : Nat) (d : RcAvDecoder σ) (cs : List FeedCall), ∀ e ∈ feeds codec calls d cs,
        e.fed.status = .ok → e.fed.consumed = true := by
  intro h
  have hrun : (feeds byteCodec 2 byteDecoder [⟨[0, 1], 0, 0⟩, ⟨[2], 0, 0⟩]).map
      (fun e => (e.fed.status, e.fed.consumed)) = [(.errDecode, true), (.ok, false)] := rfl
  have hmem : (RcStatus.ok, false) ∈ (feeds byteCodec 2 byteDecoder [⟨[0, 1], 0, 0⟩, ⟨[2], 0, 0⟩]).map
      (fun e => (e.fed.status, e.fed.consumed)) := by
    rw [hrun]
    decide
  obtain ⟨e, he, heq⟩ := List.mem_map.mp hmem
  obtain ⟨hok, hleft⟩ := Prod.mk.inj heq
  have htaken := h _ byteCodec _ byteCodec_lawful 2 byteDecoder _ e he hok
  rw [hleft] at htaken
  cases htaken

/-- A run whose calls all return `RC_OK` loses no packet. -/
theorem feeds_ok_lossless {waiting : σ → Prop} (hlaw : codec.Lawful waiting)
    (htells : codec.Tells waiting) {calls : Nat} {d : RcAvDecoder σ} (hd : ¬ waiting d.ctx)
    (cs : List FeedCall) (hok : ∀ e ∈ feeds codec calls d cs, e.fed.status = .ok) :
    ∀ e ∈ feeds codec calls d cs, e.fed.consumed = true := by
  have hclean : ∀ r ∈ runReplies codec calls d cs, ¬ r.endsEarly := by
    intro r hr
    obtain ⟨e, he, hne, rfl⟩ := (runReplies_mem codec).mp hr
    exact (feed_status codec (feeds_mem codec he) hne).1.mp (hok e he)
  have hnone : ∀ r r', [r, r'] <:+: ⟨.ok, []⟩ :: runReplies codec calls d cs → r.endsEarly →
      r'.refused → r'.endsEarly := by
    intro r r' hin hearly
    rcases List.mem_cons.mp (hin.subset List.mem_cons_self) with rfl | hr
    · simp [Replies.endsEarly] at hearly
    · exact absurd hearly (hclean r hr)
  intro e he
  by_cases hnil : e.call.data = []
  · have hstatus := hok e he
    rw [(feed_empty codec (feeds_mem codec he) hnil).1] at hstatus
    cases hstatus
  · have hr := (runReplies_mem codec).mpr ⟨e, he, hnil, rfl⟩
    by_contra hleft
    rcases (feed_status codec (feeds_mem codec he) hnil).2.mp (by simpa using hleft) with
      hrefused | herror
    · exact hclean _ hr (refused_behind codec hlaw htells ⟨.ok, []⟩ (.inr hd) hnone _ hr hrefused)
    · exact hclean _ hr (.inl herror)

end RigControl.Core
