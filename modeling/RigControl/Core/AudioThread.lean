import RigControl.Core.Demuxer

/-!
# The audio thread

`rc_demux_read_audio_meta` of `demuxer.c`, `audio_thread_fn` of `client.c`, and of `audio.c`
what `rc_audio_create` takes from the meta and what `rc_audio_feed` hands to the decoder.
Without a player the packets are read all the same, so that the server is not held up.

FFmpeg and the sound device are outside the model: whether they can be set up is a
parameter. The flag `running` is one too, as the number of packets that are read before it
is cleared.
-/

namespace RigControl.Core

open RigControl.Lib

def rcAudioMagic : UInt32 := 0x52434E41
def rcAcodecIdNone : UInt32 := 0x00000000
def rcAcodecIdOpus : UInt32 := 0x6F707573

/-- `rc_audio_meta`. -/
structure RcAudioMeta where
  magic : UInt32
  codecId : UInt32
  sampleRate : UInt32
  channels : UInt8
  deriving DecidableEq, Repr

def rcDemuxReadAudioMeta : Decoder Stream RcStatus RcAudioMeta := do
  let hdr ← rcNetReadFull (4 + 4 + 4 + 1)
  let out : RcAudioMeta :=
    { magic := be32 hdr 0
      codecId := be32 hdr 4
      sampleRate := be32 hdr 8
      channels := hdr.getD 12 0 }
  if out.magic ≠ rcAudioMagic then throw .errProtocol else return out

/-- The fields of `rc_audio` that the meta decides. -/
structure RcAudio where
  channels : UInt8
  sampleRate : Int32
  extradata : List UInt8
  rbFrames : UInt32
  deriving DecidableEq, Repr

def putLe16 (v : UInt16) : List UInt8 := [v.toUInt8, (v >>> 8).toUInt8]

def putLe32 (v : UInt32) : List UInt8 :=
  [v.toUInt8, (v >>> 8).toUInt8, (v >>> 16).toUInt8, (v >>> 24).toUInt8]

/-- `set_opus_extradata`. -/
def opusExtradata (channels : UInt8) (sampleRate : Int32) : List UInt8 :=
  [79, 112, 117, 115, 72, 101, 97, 100] ++ ([1, channels] ++ (putLe16 0 ++
    (putLe32 sampleRate.toUInt32 ++ (putLe16 0 ++ [0]))))

def rcAudioBufferMs : Int64 := 80

/-- `rb_frames`. -/
def ringFrames (sampleRate : Int32) : UInt32 :=
  let frames := (sampleRate.toInt64 * rcAudioBufferMs / 1000).toUInt64.toUInt32
  if frames < 2048 then 2048 else frames

/-- `rc_audio_create`; `ok`: the decoder, the ring and the device can be set up. -/
def rcAudioCreate (ok : Bool) (m : RcAudioMeta) : Option RcAudio :=
  if m.codecId = rcAcodecIdNone then none
  else if m.codecId ≠ rcAcodecIdOpus then none
  else
    let channels := if m.channels ≠ 0 then m.channels else 2
    let sampleRate := if m.sampleRate ≠ 0 then m.sampleRate.toInt32 else 48000
    let player : RcAudio :=
      ⟨channels, sampleRate, opusExtradata channels sampleRate, ringFrames sampleRate⟩
    if ok then some player else none

/-- The data of `avcodec_send_packet` in `rc_audio_feed`. -/
def rcAudioFeed (p : Packet) : Option (List UInt8) := if p.isConfig then none else some p.data

/-- What the thread has read, and what it has handed to the decoder. -/
structure AudioThread where
  audioMeta : Option RcAudioMeta
  player : Option RcAudio
  packets : List Packet
  fed : List (List UInt8)

def audioThread (alloc : Alloc) (ok : Bool) (turns : Nat) (src : Stream) : AudioThread :=
  match rcDemuxReadAudioMeta.exec src with
  | (.error _, _) => ⟨none, none, [], []⟩
  | (.ok m, src) =>
    let player := rcAudioCreate ok m
    let packets := (drain (rcDemuxReadPacket alloc) turns (.new src)).1
    ⟨some m, player, packets, if player.isSome then packets.filterMap rcAudioFeed else []⟩

/-! ## The meta -/

/-- The bytes of a meta are read back, and a part of them is refused. -/
theorem audioMeta_decodes (codecId sampleRate : UInt32) (channels : UInt8) :
    Decodes never Stream.bytes rcDemuxReadAudioMeta
      (bytes32 rcAudioMagic ++ (bytes32 codecId ++ (bytes32 sampleRate ++ [channels])))
      ⟨rcAudioMagic, codecId, sampleRate, channels⟩ := by
  have hhdr : Decodes never Stream.bytes (rcNetReadFull (4 + 4 + 4 + 1))
      (bytes32 rcAudioMagic ++ (bytes32 codecId ++ (bytes32 sampleRate ++ [channels])))
      (bytes32 rcAudioMagic ++ (bytes32 codecId ++ (bytes32 sampleRate ++ [channels]))) :=
    rcNetReadFull_decodes rfl
  generalize hdef : bytes32 rcAudioMagic ++ (bytes32 codecId ++ (bytes32 sampleRate ++ [channels])) =
    hdr at hhdr ⊢
  have h1 : be32 hdr 0 = rcAudioMagic := hdef ▸ word32_append [] _ _
  have h2 : be32 hdr 4 = codecId := hdef ▸ word32_append (bytes32 rcAudioMagic) _ _
  have h3 : be32 hdr 8 = sampleRate :=
    hdef ▸ word32_append (bytes32 rcAudioMagic ++ bytes32 codecId) _ _
  have h4 : hdr.getD 12 0 = channels := hdef ▸ rfl
  rw [← List.append_nil hdr]
  refine hhdr.bind ?_
  simp only [h1, h2, h3, h4, ne_eq, not_true_eq_false, ↓reduceIte]
  exact .pure (⟨rcAudioMagic, codecId, sampleRate, channels⟩ : RcAudioMeta)

end RigControl.Core
