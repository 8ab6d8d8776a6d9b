import RigControl.Server.StreamTo
import RigControl.Wire.Video

/-!
# The video from the encoders to the reader

`Server.main` writes the `device_meta` of the size that the constructor of `ScreenEncoder`
has read, and `streamTo` the packets of one encoder after the other. The desktop reads a
meta, and packets until one cannot be read. Of the end of an encoder and the beginning of
the next there is nothing on the wire.
-/

namespace RigControl.Wire

open RigControl.Lib RigControl.Core RigControl.Server

/-! ## What is on the socket -/

/-- The buffers that a loop is done with, but for one it has discarded or whose write
has thrown. -/
def settled (loop : EncodeLoop) : List OutputBuffer :=
  loop.dequeued.take (loop.dequeued.length - loop.place.pending.length)

theorem written_settled {loop : EncodeLoop} (h : loop.Inv) :
    loop.written = ((settled loop).filter OutputBuffer.wanted).map OutputBuffer.wire := by
  obtain ⟨done, hdequeued, hwritten⟩ := h.packets
  have hsettled : settled loop = done := by
    rw [settled, hdequeued, List.length_append, Nat.add_sub_cancel, List.take_left]
  rw [hsettled, hwritten]

/-- What `streamTo` has put on the socket. -/
def socketBytes (s : StreamTo) : List UInt8 :=
  (s.loops.flatMap fun loop => loop.written.flatten) ++ s.torn

/-- The buffers that became packets, encoder after encoder; the last may be torn. -/
def sent (s : StreamTo) : List OutputBuffer :=
  (s.loops.flatMap settled).filter OutputBuffer.wanted ++ s.tornPacket

theorem ran_loops {s : StreamTo} (h : s.Turned) {loop : EncodeLoop} (hloop : loop ∈ s.loops) :
    ∃ size, loop.Ran size := by
  rcases List.mem_append.mp hloop with hpast | hnow
  · obtain ⟨p, hp, rfl⟩ := List.mem_map.mp hpast
    exact ⟨p.1, h.past p hp⟩
  · exact ⟨s.size, h.running loop (Option.mem_toList.mp hnow)⟩

theorem flatten_loops {loops : List EncodeLoop} (h : ∀ loop ∈ loops, loop.Inv) :
    (loops.flatMap fun loop => loop.written.flatten) =
      ((loops.flatMap settled).filter OutputBuffer.wanted).flatMap OutputBuffer.wire := by
  induction loops with
  | nil => rfl
  | cons loop loops ih =>
    have hloop := written_settled (h loop List.mem_cons_self)
    have htail := ih fun l hl => h l (List.mem_cons_of_mem _ hl)
    rw [List.flatMap_cons, htail, hloop, List.flatMap_cons, List.filter_append,
      List.flatMap_append, ← List.flatMap_def]

/-- The socket has the packets, field after field; of the last one perhaps a part. -/
theorem socketBytes_begins {s : StreamTo} (h : s.Turned) :
    socketBytes s <+: (sent s).flatMap OutputBuffer.wire := by
  have hinv : ∀ loop ∈ s.loops, loop.Inv := fun loop hloop =>
    let ⟨_, hran⟩ := ran_loops h hloop
    hran.inv
  rw [socketBytes, sent, List.flatMap_append, flatten_loops hinv]
  exact (List.prefix_append_right_inj _).mpr h.torn

/-! ## What the reader gets -/

/-- The packet of a buffer. -/
def OutputBuffer.packet (b : OutputBuffer) : Packet :=
  { isConfig := b.config
    isKey := b.key
    ptsUs := Int64.ofNat (b.ptsUs.toNat % 2 ^ 62)
    data := b.payload }

/-- What throws is a write. -/
theorem torn_wanted_step {device : Int × Int} {loop loop' : EncodeLoop} {a : EncodeAct}
    (h : ∀ b ∈ loop.place.torn, b.wanted = true) (hs : loop.step device a = some loop') :
    ∀ b ∈ loop'.place.torn, b.wanted = true := by
  cases EncodeLoop.moves_of_step hs with
  | display size => exact h
  | info code hplace => nofun
  | buffer b hplace => nofun
  | idle hplace =>
    cases loop.rotationChanged device with
    | true => nofun
    | false => nofun
  | check b hplace =>
    unfold EncodeLoop.checkBuffer
    split
    · split <;> nofun
    · nofun
  | process b ok hplace =>
    unfold EncodeLoop.process
    split
    · rename_i hwanted
      split
      · nofun
      · intro c hc
        rw [List.mem_singleton.mp hc]
        exact hwanted
    · split <;> nofun

theorem ran_torn_wanted {size : EncoderSize} {loop : EncodeLoop} (h : loop.Ran size) :
    ∀ b ∈ loop.place.torn, b.wanted = true := by
  obtain ⟨display, as, hrun⟩ := h
  exact Lts.invariant (I := fun l => ∀ b ∈ l.place.torn, b.wanted = true)
    (fun _ _ _ hl hs => torn_wanted_step hl hs) nofun hrun

theorem sent_wanted {s : StreamTo} (h : s.Turned) : ∀ b ∈ sent s, b.wanted = true := by
  intro b hb
  rcases List.mem_append.mp hb with hb | hb
  · exact (List.mem_filter.mp hb).2
  · obtain ⟨loop, hloop, hb⟩ := List.mem_flatMap.mp hb
    obtain ⟨_, hran⟩ := ran_loops h hloop
    exact ran_torn_wanted hran b hb

/-- What is read of a buffer, with the flag of a key frame that was written. -/
theorem buffer_decodes (alloc : Alloc) (key : Bool) {b : OutputBuffer} (hwanted : b.wanted = true)
    (hmax : b.size ≤ payloadMax) :
    Decodes noMemory PacketReader.bytes (rcDemuxReadPacket alloc)
      (bytes64 (packetFlags b.config key b.ptsUs) ++ (bytes32 (UInt32.ofNat b.size) ++ b.payload))
      { isConfig := b.config
        isKey := key
        ptsUs := Int64.ofNat (b.ptsUs.toNat % 2 ^ 62)
        data := b.payload } := by
  have hlen := b.length_payload
  have hpos : 0 < b.payload.length := by
    rw [hlen]
    simp only [OutputBuffer.wanted, Bool.and_eq_true, decide_eq_true_eq] at hwanted
    exact hwanted.1
  rw [← hlen]
  exact packet_decodes alloc ⟨b.config, key, b.ptsUs, List.replicate packetHdr 0, b.payload, [],
    List.length_replicate, hpos, hlen ▸ hmax⟩

theorem buffer_wire_ne_nil (b : OutputBuffer) : b.wire ≠ [] := by
  simp [OutputBuffer.wire, bytes64]

/-- A side of the video, as it is in the meta. -/
theorem side_toNat {side : Int32} (hpos : 0 ≤ side.toInt) (hmax : side.toInt ≤ 65535) :
    (side.toUInt32.toUInt16.toNat : Int) = side.toInt := by
  have hle : 0 ≤ side := Int32.le_iff_toInt_le.mpr hpos
  have hnat : (side.toUInt32.toNat : Int) = side.toInt := by
    rw [Int32.toNat_toUInt32_of_le hle]
    exact Int.toNat_of_nonneg hpos
  rw [toUInt16_toNat (by omega), hnat]

/-- **The reader gets what the encoders made.** However often the device has turned and
whatever has thrown, and whatever part of the bytes has arrived: the meta has the codec
and the size of the first encoder, and the packets are those of the buffers that all
the encoders have put on the socket, in order, from the first on; every one that has
arrived whole is among them if there is memory for it. -/
theorem stream_reaches (alloc : Alloc) (o : ServerOptions) (size : EncoderSize)
    (name : List UInt8) {as : List StreamAct} {s : StreamTo}
    (h : (streamLts o size).run (streamLts o size).init as = some s)
    (hw : 0 ≤ size.encWidth.toInt ∧ size.encWidth.toInt ≤ 65535)
    (hh : 0 ≤ size.encHeight.toInt ∧ size.encHeight.toInt ≤ 65535)
    (hmax : ∀ b ∈ sent s, b.size ≤ payloadMax) {src : Stream}
    (hsrc : src.bytes <+: writeDeviceMeta o.codecId size.encWidth.toUInt32
      size.encHeight.toUInt32 name ++ socketBytes s)
    (hmeta : 78 ≤ src.bytes.length) :
    ∃ dev src', rcDemuxReadMeta.exec src = (.ok dev, src') ∧
      dev.codecId = o.codecId ∧ (dev.width.toNat : Int) = size.encWidth.toInt ∧
      (dev.height.toNat : Int) = size.encHeight.toInt ∧
      (readPackets alloc (.new src')).1 <+: (sent s).map OutputBuffer.packet ∧
      ((∀ n len, alloc n len = true) → ∀ k,
        writeDeviceMeta o.codecId size.encWidth.toUInt32 size.encHeight.toUInt32 name ++
          ((sent s).take k).flatMap OutputBuffer.wire <+: src.bytes →
        ((sent s).take k).map OutputBuffer.packet <+: (readPackets alloc (.new src')).1) := by
  have hturned := StreamTo.turned_run h
  have hdec : ∀ b ∈ sent s, Decodes noMemory PacketReader.bytes (rcDemuxReadPacket alloc) b.wire
      (OutputBuffer.packet b) :=
    fun b hb => buffer_decodes alloc b.key (sent_wanted hturned b hb) (hmax b hb)
  have hlen := length_writeDeviceMeta o.codecId size.encWidth.toUInt32 size.encHeight.toUInt32 name
  obtain ⟨t, ht⟩ := List.prefix_of_prefix_length_le (List.prefix_append _ _) hsrc (by omega)
  rw [← ht, List.prefix_append_right_inj] at hsrc
  have hpt := hsrc.trans (socketBytes_begins hturned)
  obtain ⟨src', hexec, hrest⟩ := (meta_decodes o.codecId size.encWidth.toUInt32
    size.encHeight.toUInt32 name).full_never ht.symm
  have hbytes : (PacketReader.new src').bytes = t := hrest
  refine ⟨_, src', hexec, rfl, side_toNat hw.1 hw.2, side_toNat hh.1 hh.2, ?_,
    fun halloc k hk => ?_⟩
  · exact drain_prefix hdec (fun _ hs => rcDemuxReadPacket_end alloc hs) _ (hbytes ▸ hpt)
  · rw [← ht, List.prefix_append_right_inj] at hk
    have hturns : ((sent s).take k).length ≤ src'.bytes.length + 1 := by
      have hlen : (arrived OutputBuffer.wire ((sent s).take k) _).length ≤ _ :=
        arrived_length_le (fun b _ => buffer_wire_ne_nil b)
          (((sent s).take k).flatMap OutputBuffer.wire)
      rw [arrived_all] at hlen
      have hle := hk.length_le
      rw [← hbytes] at hle
      exact (hlen.trans hle).trans (Nat.le_succ _)
    exact drain_fits hdec (fun _ hs => rcDemuxReadPacket_end alloc hs) (hbytes ▸ hpt)
      (rcDemuxReadPacket_granted halloc) hturns (hbytes ▸ hk)

/-- An encoder that makes one packet, and meets the end of its stream. -/
def oneKeyFrame : List StreamAct :=
  [.createEncoderByType true false, .configure true, .createInputSurface true,
    .createDisplay true, .openTransaction true, .setDisplay true, .start true (1080, 2400),
    .encode (.dequeue (.buffer keyBuffer)), .encode .check, .encode (.process true),
    .encode (.dequeue (.buffer lastBuffer)), .encode .check, .encode (.process true), .leave 0]

theorem stream_reaches_key :
    ∃ dev src', rcDemuxReadMeta.exec
        [.data (writeDeviceMeta 0x68323634 1080 2400 [80, 105] ++ keyBuffer.wire)] =
          (.ok dev, src') ∧
      (dev.width.toNat : Int) = 1080 ∧
      (readPackets (fun _ _ => true) (.new src')).1 = [OutputBuffer.packet keyBuffer] := by
  have hrun : ((streamLts .default ⟨1080, 2400, 0, 1080, 2400⟩).run
      (streamLts .default ⟨1080, 2400, 0, 1080, 2400⟩).init oneKeyFrame).any (fun s =>
        sent s = [keyBuffer] ∧ s.torn = [] ∧
          (s.loops.flatMap settled).filter OutputBuffer.wanted = [keyBuffer]) = true := by
    decide +kernel
  obtain ⟨s, hs, hend⟩ := (Option.any_eq_true _ _).mp hrun
  obtain ⟨hsent, htorn, hsettled⟩ := of_decide_eq_true hend
  have hinv : ∀ loop ∈ s.loops, loop.Inv := fun loop hloop =>
    let ⟨_, hran⟩ := ran_loops (StreamTo.turned_run hs) hloop
    hran.inv
  have hsocket : socketBytes s = keyBuffer.wire := by
    rw [socketBytes, flatten_loops hinv, hsettled, htorn, List.append_nil, List.flatMap_singleton]
  have hsrc : Stream.bytes [.data (writeDeviceMeta 0x68323634 1080 2400 [80, 105] ++
      keyBuffer.wire)] = writeDeviceMeta 0x68323634 1080 2400 [80, 105] ++ keyBuffer.wire := by
    simp [Stream.bytes, payload]
  obtain ⟨dev, src', hexec, -, hwidth, -, hread, hall⟩ := stream_reaches (fun _ _ => true) .default
    ⟨1080, 2400, 0, 1080, 2400⟩ [80, 105] hs (by decide) (by decide)
    (by rw [hsent]; decide) (by rw [hsrc, hsocket]; exact List.prefix_refl _)
    (by rw [hsrc, List.length_append, length_writeDeviceMeta]; omega)
  have hone := hall (fun _ _ => rfl) 1
    (by rw [hsrc, hsent, List.take_succ_cons, List.take_zero, List.flatMap_singleton]
        exact List.prefix_refl _)
  rw [hsent] at hread hone
  exact ⟨dev, src', hexec, hwidth, hread.eq_of_length_le hone.length_le⟩

end RigControl.Wire
