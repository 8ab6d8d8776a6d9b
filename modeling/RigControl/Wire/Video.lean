import RigControl.Core.Demuxer
import RigControl.Server.VideoOutput

/-!
# The video stream, end to end

The bytes of `writeDeviceMeta` followed by `writePacket` are what
`rc_demux_read_meta` followed by `rc_demux_read_packet` reads. The two sides
disagree on nothing: the flag bits and the timestamp share one word without
overlap, and the header of a packet names its payload's length.
-/

namespace RigControl.Wire

open RigControl.Lib RigControl.Core RigControl.Server

/-! ## The flags word -/

theorem packetFlags_toNat (config key : Bool) (pts : UInt64) :
    (packetFlags config key pts).toNat =
      config.toNat * 2 ^ 63 + key.toNat * 2 ^ 62 + pts.toNat % 2 ^ 62 := by
  have hmask : Protocol.pktPtsMask.toNat = 2 ^ 62 - 1 := by decide
  have hconfig : Protocol.pktFlagConfig.toNat = 2 ^ 63 := by decide
  have hkey : Protocol.pktFlagKeyframe.toNat = 2 ^ 62 := by decide
  have hpts : (pts &&& Protocol.pktPtsMask).toNat = pts.toNat % 2 ^ 62 := by
    rw [UInt64.toNat_and, hmask, Nat.and_two_pow_sub_one_eq_mod]
  have hlt : pts.toNat % 2 ^ 62 < 2 ^ 62 := Nat.mod_lt _ (by omega)
  have h63 : pts.toNat % 2 ^ 62 ||| 2 ^ 63 = 2 ^ 63 + pts.toNat % 2 ^ 62 := by
    have h := or_eq_add (a := 1) (b := pts.toNat % 2 ^ 62) (n := 63) (by omega)
    rw [Nat.or_comm]
    omega
  have h62 : pts.toNat % 2 ^ 62 ||| 2 ^ 62 = 2 ^ 62 + pts.toNat % 2 ^ 62 := by
    have h := or_eq_add (a := 1) hlt
    rw [Nat.or_comm]
    omega
  have hboth : (2 ^ 63 + pts.toNat % 2 ^ 62) ||| 2 ^ 62 =
      2 ^ 63 + 2 ^ 62 + pts.toNat % 2 ^ 62 := by
    have h3 := or_eq_add (a := 3) hlt
    rw [← h63, Nat.or_comm, Nat.or_comm _ (2 ^ 63), ← Nat.or_assoc]
    omega
  cases config <;> cases key <;>
    simp only [packetFlags, Bool.false_eq_true, ↓reduceIte, UInt64.toNat_or, hpts, hconfig,
      hkey, h62, h63, hboth, Bool.toNat_true, Bool.toNat_false] <;> omega

theorem and_bit_ne_zero {x m : UInt64} {i : Nat} (hm : m.toNat = 2 ^ i) :
    x &&& m ≠ 0 ↔ x.toNat / 2 ^ i % 2 = 1 := by
  have h : (x &&& m).toNat = (x.toNat.testBit i).toNat * 2 ^ i := by
    rw [UInt64.toNat_and, hm, Nat.and_two_pow]
  rw [Ne, ← UInt64.toNat_inj, h, Nat.testBit_eq_decide_div_mod_eq]
  by_cases hb : x.toNat / 2 ^ i % 2 = 1 <;> simp [hb]

/-- The reader's masks take the writer's word apart. -/
theorem packetFlags_fields (config key : Bool) (pts : UInt64) :
    (packetFlags config key pts &&& rcPktFlagConfig ≠ 0 ↔ config = true) ∧
      (packetFlags config key pts &&& rcPktFlagKeyframe ≠ 0 ↔ key = true) ∧
      packetFlags config key pts &&& rcPktPtsMask = UInt64.ofNat (pts.toNat % 2 ^ 62) := by
  have h := packetFlags_toNat config key pts
  have hlt : pts.toNat % 2 ^ 62 < 2 ^ 62 := Nat.mod_lt _ (by omega)
  refine ⟨?_, ?_, ?_⟩
  · rw [and_bit_ne_zero (i := 63) (by decide), h]
    cases config <;> cases key <;> simp <;> omega
  · rw [and_bit_ne_zero (i := 62) (by decide), h]
    cases config <;> cases key <;> simp <;> omega
  · apply UInt64.toNat_inj.mp
    have hmask : rcPktPtsMask.toNat = 2 ^ 62 - 1 := by decide
    rw [UInt64.toNat_and, hmask, Nat.and_two_pow_sub_one_eq_mod, h, UInt64.toNat_ofNat']
    cases config <;> cases key <;> simp <;> omega

/-- The packet the reader gets for one the writer sent. -/
def delivered (p : EncodedPacket) : Packet :=
  { isConfig := p.config
    isKey := p.key
    ptsUs := Int64.ofNat (p.ptsUs.toNat % 2 ^ 62)
    data := p.payload }

theorem packet_decodes (alloc : Alloc) (p : EncodedPacket) :
    Decodes noMemory PacketReader.bytes (rcDemuxReadPacket alloc) p.wire (delivered p) := by
  obtain ⟨h1, h2, h3⟩ := packetFlags_fields p.config p.key p.ptsUs
  have hmax : p.len ≤ packetMax := by
    rw [UInt32.le_iff_toNat_le, p.len_toNat]
    exact p.payload_le
  have h := rcDemuxReadPacket_decodes alloc (packetFlags p.config p.key p.ptsUs) p.len_toNat
    p.payload_pos hmax
  simp only [h1, h2, h3] at h
  simpa [delivered, EncodedPacket.wire] using h

/-! ## The device meta -/

theorem short_eq (v : UInt32) : short v = bytes16 v.toUInt16 := by
  have h : (v >>> 8).toUInt8 = (v.toUInt16 >>> 8).toUInt8 := by
    apply UInt8.toNat_inj.mp
    simp [Nat.shiftRight_eq_div_pow]
    omega
  simp [short, bytes16, h]

/-- What the reader gets for a device meta. -/
def metaOf (codecId width height : UInt32) (name : List UInt8) : RcDeviceMeta :=
  { magic := rcMetaMagic
    version := rcProtoVersion
    codecId := codecId
    width := width.toUInt16
    height := height.toUInt16
    deviceName := nameField name }

/-- The terminator the reader sets is there already. -/
theorem set_nameField (name : List UInt8) : (nameField name).set (rcDeviceNameLen - 1) 0 =
    nameField name := by
  have hl : rcDeviceNameLen - 1 < (nameField name).length := by
    rw [length_nameField]
    decide
  have h0 : (nameField name)[rcDeviceNameLen - 1] = 0 := by
    simp only [nameField]
    have hle : min name.length 63 ≤ 63 := Nat.min_le_right _ _
    rw [List.getElem_append_right (by rw [List.length_take]; exact (Nat.min_le_left _ _).trans hle)]
    simp
  have h := List.set_getElem_self hl
  rwa [h0] at h

theorem meta_decodes (codecId width height : UInt32) (name : List UInt8) :
    Decodes never Stream.bytes rcDemuxReadMeta (writeDeviceMeta codecId width height name)
      (metaOf codecId width height name) := by
  rw [writeDeviceMeta_eq]
  have hhdr : Decodes never Stream.bytes
      (rcNetReadFull (4 + 2 + 4 + 2 + 2 + rcDeviceNameLen))
      (metaHead codecId width height ++ nameField name)
      (metaHead codecId width height ++ nameField name) :=
    rcNetReadFull_decodes (by rw [List.length_append, length_nameField]; rfl)
  have hmeta : metaHead codecId width height ++ nameField name =
      bytes32 rcMetaMagic ++ (bytes16 rcProtoVersion ++ (bytes32 codecId ++
        (bytes16 width.toUInt16 ++ (bytes16 height.toUInt16 ++ nameField name)))) := by
    simp only [metaHead, short_eq, List.append_assoc]
    rfl
  generalize metaHead codecId width height ++ nameField name = hdr at hhdr hmeta ⊢
  have h1 : be32 hdr 0 = rcMetaMagic := hmeta ▸ word32_append [] _ _
  have h2 : be16 hdr 4 = rcProtoVersion := hmeta ▸ word16_append (bytes32 rcMetaMagic) _ _
  have h3 : be32 hdr 6 = codecId :=
    hmeta ▸ word32_append (bytes32 rcMetaMagic ++ bytes16 rcProtoVersion) _ _
  have h4 : be16 hdr 10 = width.toUInt16 :=
    hmeta ▸ word16_append (bytes32 rcMetaMagic ++ bytes16 rcProtoVersion ++ bytes32 codecId) _ _
  have h5 : be16 hdr 12 = height.toUInt16 :=
    hmeta ▸ word16_append (bytes32 rcMetaMagic ++ bytes16 rcProtoVersion ++ bytes32 codecId ++
      bytes16 width.toUInt16) _ _
  have h6 : (hdr.drop 14).take rcDeviceNameLen = nameField name := by
    rw [hmeta]
    show (nameField name).take rcDeviceNameLen = nameField name
    exact List.take_of_length_le (Nat.le_of_eq (length_nameField name))
  rw [← List.append_nil hdr]
  refine hhdr.bind ?_
  simp only [h1, h2, h3, h4, h5, h6, set_nameField, ne_eq, not_true_eq_false, ↓reduceIte]
  exact .pure (metaOf codecId width height name)

/-! ## A session -/

/-- What the server writes on the video socket. -/
def videoBytes (codecId width height : UInt32) (name : List UInt8)
    (packets : List EncodedPacket) : List UInt8 :=
  writeDeviceMeta codecId width height name ++ packets.flatMap EncodedPacket.written

theorem flatMap_written (packets : List EncodedPacket) :
    packets.flatMap EncodedPacket.written = packets.flatMap EncodedPacket.wire := by
  rw [show EncodedPacket.written = EncodedPacket.wire from funext EncodedPacket.written_eq_wire]

theorem wire_ne_nil (p : EncodedPacket) : p.wire ≠ [] := by
  simp [EncodedPacket.wire, bytes64]

/-- The packet loop reads what has arrived of the packets. -/
theorem readPackets_arrived (alloc : Alloc) {packets : List EncodedPacket} {r : PacketReader}
    (hp : r.bytes <+: packets.flatMap EncodedPacket.wire) :
    ∃ k ≤ packets.length,
      (packets.take k).flatMap EncodedPacket.wire <+: r.bytes ∧
      (k < packets.length →
        r.bytes.length < ((packets.take (k + 1)).flatMap EncodedPacket.wire).length) ∧
      (readPackets alloc r).1 <+: (packets.take k).map delivered ∧
      ∃ status, (readPackets alloc r).2.1 = some status ∧
        (status ≠ .errNomem → (readPackets alloc r).1 = (packets.take k).map delivered) := by
  have hdec : ∀ p ∈ packets, Decodes noMemory PacketReader.bytes (rcDemuxReadPacket alloc) p.wire
      (delivered p) := fun p _ => packet_decodes alloc p
  have hlen : (arrived EncodedPacket.wire packets r.bytes).length ≤ r.bytes.length :=
    arrived_length_le (fun p _ => wire_ne_nil p) _
  obtain ⟨hpre, w, hw, hall⟩ := drain_arrived hdec (fun s hs => rcDemuxReadPacket_end alloc hs)
    (r.bytes.length + 1) hp (Nat.lt_succ_of_le hlen)
  obtain ⟨k, hk, harr, hfit, hnext⟩ := arrived_eq_take EncodedPacket.wire hp
  rw [harr] at hpre hall
  exact ⟨k, hk, hfit, hnext, hpre, w, hw, fun hne => (hall hne).1⟩

theorem toUInt16_toNat {v : UInt32} (h : v.toNat ≤ 65535) : v.toUInt16.toNat = v.toNat := by
  rw [UInt32.toNat_toUInt16]
  omega

theorem length_writeDeviceMeta (codecId width height : UInt32) (name : List UInt8) :
    (writeDeviceMeta codecId width height name).length = 78 := by
  rw [writeDeviceMeta_eq, List.length_append, length_nameField]
  rfl

/-- **The video stream arrives as it was sent.** Whatever part of the bytes of a
session reaches the reader, cut and interrupted in any way: the device meta is read
once its 78 bytes are there, with the size and the name it was written with, and
then every packet that arrived whole is delivered, in order, and nothing else, unless
the system refuses memory for the buffer; and the capacity the reader records is
always the size of its block, whatever it reads. -/
theorem video_round_trip (alloc : Alloc) (codecId width height : UInt32) (name : List UInt8)
    (packets : List EncodedPacket) (hw : width.toNat ≤ 65535) (hh : height.toNat ≤ 65535) :
    (∀ src : Stream, src.bytes <+: videoBytes codecId width height name packets →
      (src.bytes.length < 78 → ∃ w src', rcDemuxReadMeta.exec src = (.error w, src')) ∧
      (78 ≤ src.bytes.length → ∃ dev src', rcDemuxReadMeta.exec src = (.ok dev, src') ∧
        dev.codecId = codecId ∧ dev.width.toNat = width.toNat ∧
        dev.height.toNat = height.toNat ∧
        dev.deviceName = name.take (min name.length 63) ++
          List.replicate (64 - min name.length 63) 0 ∧
        ∃ k ≤ packets.length,
          videoBytes codecId width height name (packets.take k) <+: src.bytes ∧
          (k < packets.length → src.bytes.length <
            (videoBytes codecId width height name (packets.take (k + 1))).length) ∧
          (readPackets alloc (.new src')).1 <+: (packets.take k).map delivered ∧
          ∃ status, (readPackets alloc (.new src')).2.1 = some status ∧
            (status ≠ .errNomem →
              (readPackets alloc (.new src')).1 = (packets.take k).map delivered) ∧
            ((∀ n len, alloc n len = true) → status ≠ .errNomem))) ∧
    ∀ (src : Stream) (n : Nat),
      (drain (rcDemuxReadPacket alloc) n (.new src)).2.2.cap =
        (drain (rcDemuxReadPacket alloc) n (.new src)).2.2.allocated := by
  refine ⟨fun src hp => ⟨fun hlt => ?_, fun hge => ?_⟩, fun src n => ?_⟩
  · have hm := meta_decodes codecId width height name
    refine hm.cut src (List.prefix_of_prefix_length_le hp (List.prefix_append _ _) ?_) ?_
    · rw [length_writeDeviceMeta]
      omega
    · intro h
      rw [h, length_writeDeviceMeta] at hlt
      omega
  · have hlen := length_writeDeviceMeta codecId width height name
    obtain ⟨t, ht, hpt⟩ : ∃ t, src.bytes = writeDeviceMeta codecId width height name ++ t ∧
        t <+: packets.flatMap EncodedPacket.wire := by
      rw [videoBytes, flatMap_written] at hp
      rcases prefix_append_cases hp with h | h
      · exact ⟨[], by simpa using h.eq_of_length_le (by omega), List.nil_prefix⟩
      · exact h
    obtain ⟨src', hexec, hrest⟩ := (meta_decodes codecId width height name).full_never ht
    have hbytes : (PacketReader.new src').bytes = t := hrest
    obtain ⟨k, hk, hfit, hnext, hpre, w, hstat, hall⟩ :=
      @readPackets_arrived alloc packets (.new src') (by rwa [hbytes])
    rw [hbytes] at hfit hnext
    refine ⟨_, src', hexec, rfl, toUInt16_toNat hw, toUInt16_toNat hh, rfl, k, hk, ?_, ?_,
      hpre, w, hstat, hall, fun h => (rcDemuxReadPacket_granted h).drain hstat⟩
    · rw [videoBytes, flatMap_written, ht]
      exact (List.prefix_append_right_inj _).mpr hfit
    · intro hlt
      have := hnext hlt
      rw [videoBytes, flatMap_written, ht, List.length_append, List.length_append]
      omega
  · exact (rcDemuxReadPacket_sized alloc).drain n rfl

/-- A key frame of two bytes. -/
def keyFrame : EncodedPacket :=
  { config := false, key := true, ptsUs := 5, scratch := List.replicate 12 0,
    payload := [7, 8], slack := [], scratch_length := rfl, payload_pos := by decide,
    payload_le := by decide }

/-- A session whose last byte does not arrive: the meta is read, its packet is not
delivered. -/
theorem video_round_trip_cut :
    ∃ dev src', rcDemuxReadMeta.exec
        [.data (writeDeviceMeta 0x68323634 1920 1080 [80, 105]), .fault .eintr,
          .data (keyFrame.written.take 13)] = (.ok dev, src') ∧
      dev.width.toNat = 1920 ∧ (readPackets (fun _ _ => true) (.new src')).1 = [] := by
  have hsrc : Stream.bytes [.data (writeDeviceMeta 0x68323634 1920 1080 [80, 105]), .fault .eintr,
      .data (keyFrame.written.take 13)] =
      writeDeviceMeta 0x68323634 1920 1080 [80, 105] ++ keyFrame.written.take 13 := by
    simp [Stream.bytes, payload, Errno.restart]
  have h := (video_round_trip (fun _ _ => true) 0x68323634 1920 1080 [80, 105] [keyFrame]
    (by decide) (by decide)).1 _ (by
      rw [hsrc, videoBytes, List.flatMap_singleton]
      exact (List.prefix_append_right_inj _).mpr (List.take_prefix _ _))
  rw [hsrc, List.length_append, length_writeDeviceMeta] at h
  obtain ⟨dev, src', hexec, -, hwidth, -, -, k, hk, hfit, -, hpre, -⟩ := h.2 (by omega)
  refine ⟨dev, src', hexec, hwidth, ?_⟩
  cases k with
  | zero => exact List.prefix_nil.mp hpre
  | succ k =>
    obtain rfl : k = 0 := by
      have hone : k + 1 ≤ 1 := hk
      omega
    have hlen := hfit.length_le
    rw [videoBytes, List.length_append, List.length_append, length_writeDeviceMeta] at hlen
    exact absurd hlen (by decide)

end RigControl.Wire
