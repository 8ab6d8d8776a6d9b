import RigControl.Core.AudioThread
import RigControl.Server.AudioEncoder
import RigControl.Wire.Stream

/-!
# The sound from the encoder to the decoder

What `runAudio` of the server puts on the audio socket is what `audio_thread_fn` reads: one
meta, and packets in the frame of the video. The config packets are read and not handed to
the decoder, which has the header that `rc_audio_create` makes up of the meta.
-/

namespace RigControl.Wire

open RigControl.Lib RigControl.Core RigControl.Server

/-- What the thread of the server has put on the socket. -/
def soundBytes (s : AudioRun) : List UInt8 := s.audioMeta ++ s.packets.flatten ++ s.torn

/-- The buffers that become packets. -/
def sounds (s : AudioRun) : List OutputBuffer := s.dequeued.filter OutputBuffer.wanted

/-- The packet of a buffer. -/
def soundPacket (b : OutputBuffer) : Packet :=
  { isConfig := b.config
    isKey := false
    ptsUs := Int64.ofNat (b.ptsUs.toNat % 2 ^ 62)
    data := b.payload }

/-- The socket has a meta, and packets, field after field; of the last one perhaps a
part. -/
theorem soundBytes_begins {s : AudioRun} (h : s.Inv) :
    soundBytes s <+: s.metaWire ++ (sounds s).flatMap AudioRun.wire := by
  obtain ⟨settled, hdequeued, hpackets⟩ := h.settled
  obtain ⟨hmeta, hnone, htorn⟩ | ⟨hmeta, htorn⟩ := h.socket
  · have hpackets' : s.packets = [] := by
      rw [hnone] at hdequeued
      obtain ⟨hnil, -⟩ := List.append_eq_nil_iff.mp hdequeued.symm
      rw [hpackets, (List.append_eq_nil_iff.mp hnil).1]
      rfl
    rw [soundBytes, hmeta, hpackets']
    exact htorn.trans (List.prefix_append _ _)
  · have hfailed : s.failed.filter OutputBuffer.wanted = s.failed :=
      List.filter_eq_self.mpr h.wanted
    rw [soundBytes, hmeta, hpackets, ← List.flatMap_def, sounds, hdequeued, List.filter_append,
      List.filter_append, List.flatMap_append, List.flatMap_append, List.append_assoc,
      List.append_assoc, hfailed]
    refine (List.prefix_append_right_inj _).mpr ((List.prefix_append_right_inj _).mpr ?_)
    exact htorn.trans (List.prefix_append _ _)

theorem sounds_decode (alloc : Alloc) {s : AudioRun} (hmax : ∀ b ∈ sounds s, b.size ≤ payloadMax) :
    ∀ b ∈ sounds s, Decodes noMemory PacketReader.bytes (rcDemuxReadPacket alloc) (AudioRun.wire b)
      (soundPacket b) :=
  fun b hb => buffer_decodes alloc false (List.mem_filter.mp hb).2 (hmax b hb)

theorem length_metaWire (s : AudioRun) : s.metaWire.length = 13 := by
  rw [AudioRun.metaWire, writeAudioMeta_eq]
  rfl

theorem metaWire_decodes (s : AudioRun) :
    Decodes never Stream.bytes rcDemuxReadAudioMeta s.metaWire
      ⟨rcAudioMagic, s.codecId, sampleRate, 2⟩ := by
  have hdec := audioMeta_decodes s.codecId sampleRate 2
  rwa [AudioRun.metaWire, writeAudioMeta_eq]

/-- What `rc_audio_feed` hands on of the packets. -/
theorem filterMap_feed (bs : List OutputBuffer) :
    (bs.map soundPacket).filterMap rcAudioFeed =
      (bs.filter fun b => !b.config).map OutputBuffer.payload := by
  induction bs with
  | nil => rfl
  | cons b bs ih =>
    rw [List.map_cons, List.filterMap_cons, List.filter_cons, ih]
    cases hconfig : b.config with
    | true => simp [rcAudioFeed, soundPacket, hconfig]
    | false => simp [rcAudioFeed, soundPacket, hconfig]

/-- The player of the sound that the server sends. -/
def soundPlayer : RcAudio :=
  ⟨2, 48000, opusExtradata 2 48000, 3840⟩

theorem create_opus (ok : Bool) :
    rcAudioCreate ok ⟨rcAudioMagic, rcAcodecIdOpus, sampleRate, 2⟩ =
      if ok then some soundPlayer else none := by
  cases ok <;> decide

/-- A player is made of a meta that names the codec. -/
theorem player_of_meta {ok : Bool} {codecId : UInt32} {player : RcAudio}
    (h : rcAudioCreate ok ⟨rcAudioMagic, codecId, sampleRate, 2⟩ = some player) :
    codecId = rcAcodecIdOpus ∧ player = soundPlayer := by
  by_cases hcodec : codecId = rcAcodecIdOpus
  · subst hcodec
    rw [create_opus] at h
    cases ok with
    | false => cases h
    | true => exact ⟨rfl, (Option.some.inj h).symm⟩
  · simp only [rcAudioCreate, ne_eq, hcodec, not_false_eq_true, ↓reduceIte, ite_self] at h
    cases h

/-- **The decoder gets the sound of the encoder.** Whatever has thrown on the server, whatever
part of its bytes has arrived and however many packets are read: there is a player only if
there is an encoder, and it has the channels and the rate of the recorder. The decoder
gets the data of the packets that are not config packets, in order and from the first
on; without an encoder nothing is read behind the meta. Once the meta is there every
packet that has arrived whole reaches the decoder, if it is read and there is memory. -/
theorem sound_reaches (alloc : Alloc) (ok : Bool) (turns : Nat) {as : List AudioAct} {s : AudioRun}
    (h : audioRunLts.run audioRunLts.init as = some s)
    (hmax : ∀ b ∈ sounds s, b.size ≤ payloadMax) {src : Stream}
    (hsrc : src.bytes <+: soundBytes s) :
    (∀ player, (audioThread alloc ok turns src).player = some player →
      s.ready = true ∧ player = soundPlayer) ∧
    (audioThread alloc ok turns src).packets <+: (sounds s).map soundPacket ∧
    (audioThread alloc ok turns src).fed <+:
      ((sounds s).filter fun b => !b.config).map OutputBuffer.payload ∧
    (s.ready = false → (audioThread alloc ok turns src).packets = []) ∧
    (s.ready = true → ok = true → (∀ n len, alloc n len = true) → 13 ≤ src.bytes.length →
      ∀ k ≤ turns, s.metaWire ++ ((sounds s).take k).flatMap AudioRun.wire <+: src.bytes →
        (((sounds s).take k).filter fun b => !b.config).map OutputBuffer.payload <+:
          (audioThread alloc ok turns src).fed) := by
  have hinv := AudioRun.inv_run h
  have hwhole := hsrc.trans (soundBytes_begins hinv)
  have hlen := length_metaWire s
  have hdec := sounds_decode alloc hmax
  have hend := fun r (hr : PacketReader.bytes r = []) => rcDemuxReadPacket_end alloc hr
  rcases Nat.lt_or_ge src.bytes.length 13 with hlt | hge
  · obtain ⟨w, src', hexec⟩ := (metaWire_decodes s).cut src
      (List.prefix_of_prefix_length_le hwhole (List.prefix_append _ _) (by omega))
      fun heq => by rw [heq, hlen] at hlt; exact absurd hlt (by decide)
    rw [audioThread, hexec]
    exact ⟨nofun, List.nil_prefix, List.nil_prefix, fun _ => rfl,
      fun _ _ _ hge => absurd hge (by omega)⟩
  · obtain ⟨t, ht⟩ := List.prefix_of_prefix_length_le (List.prefix_append _ _) hwhole (by omega)
    rw [← ht, List.prefix_append_right_inj] at hwhole
    obtain ⟨src', hexec, hrest⟩ := (metaWire_decodes s).full_never ht.symm
    have hbytes : (PacketReader.new src').bytes = t := hrest
    have hread := drain_prefix hdec hend turns (s := PacketReader.new src') (hbytes ▸ hwhole)
    rw [audioThread, hexec]
    refine ⟨fun player hplayer => ?_, hread, ?_, fun hready => ?_, fun hready hok halloc _ k hk hfit => ?_⟩
    · obtain ⟨hcodec, heq⟩ := player_of_meta hplayer
      refine ⟨?_, heq⟩
      cases hready : s.ready with
      | true => rfl
      | false =>
        rw [hinv.codecId, hready] at hcodec
        exact absurd hcodec (by decide)
    · show (if _ then _ else _) <+: _
      split
      · rw [← filterMap_feed]
        exact hread.filterMap _
      · exact List.nil_prefix
    · have hnone : sounds s = [] := by rw [sounds, hinv.silent hready]; rfl
      rw [hnone] at hread
      exact List.prefix_nil.mp hread
    · have hplayer : (rcAudioCreate ok ⟨rcAudioMagic, s.codecId, sampleRate, 2⟩).isSome = true := by
        rw [hok, hinv.codecId, hready]
        rfl
      show _ <+: (if _ then _ else _)
      rw [if_pos hplayer, ← filterMap_feed]
      rw [← ht, List.prefix_append_right_inj] at hfit
      exact (drain_fits hdec hend (hbytes ▸ hwhole) (rcDemuxReadPacket_granted halloc)
        (le_trans (List.length_take_le _ _) hk) (hbytes ▸ hfit)).filterMap _

/-- A session that ends behind its first packet: all of it is fed. -/
theorem sound_reaches_packet :
    ∃ s, audioRunLts.run audioRunLts.init twoReads = some s ∧
      (audioThread (fun _ _ => true) true 5
        [.data (s.metaWire ++ AudioRun.wire keyBuffer)]).fed = [keyBuffer.payload] := by
  have hrun : (audioRunLts.run audioRunLts.init twoReads).any (fun s =>
      s.ready = true ∧ s.dequeued = [keyBuffer] ∧ s.stage.holding = [] ∧ s.failed = [] ∧
        s.audioMeta = s.metaWire ∧ s.torn = []) = true := by
    decide +kernel
  obtain ⟨s, hs, hend⟩ := (Option.any_eq_true _ _).mp hrun
  obtain ⟨hready, hdequeued, hholding, hfailed, hmeta, htorn⟩ := of_decide_eq_true hend
  obtain ⟨settled, hsettled, hpackets⟩ := (AudioRun.inv_run hs).settled
  rw [hdequeued, hholding, hfailed, List.append_nil, List.append_nil] at hsettled
  have hsounds : sounds s = [keyBuffer] := by
    rw [sounds, hdequeued]
    rfl
  have hbytes : soundBytes s = s.metaWire ++ AudioRun.wire keyBuffer := by
    rw [soundBytes, hmeta, hpackets, ← hsettled, htorn]
    exact List.append_nil _
  have hsrc : Stream.bytes [.data (s.metaWire ++ AudioRun.wire keyBuffer)] =
      s.metaWire ++ AudioRun.wire keyBuffer := by
    simp [Stream.bytes, payload]
  have hlen : 13 ≤ (s.metaWire ++ AudioRun.wire keyBuffer).length := by
    rw [List.length_append, length_metaWire]
    exact Nat.le_add_right _ _
  obtain ⟨-, -, hfed, -, hall⟩ := sound_reaches (fun _ _ => true) true 5 hs
    (by rw [hsounds]; decide) (by rw [hsrc, hbytes])
  have hone := hall hready rfl (fun _ _ => rfl) (by rwa [hsrc]) 1 (by decide)
    (by rw [hsrc, hsounds, List.take_succ_cons, List.take_zero, List.flatMap_singleton])
  rw [hsounds] at hfed hone
  exact ⟨s, hs, hfed.eq_of_length_le hone.length_le⟩

end RigControl.Wire
