import RigControl.Core.Net
import RigControl.Lib.Endian

/-!
# Reading the video stream

`demuxer.c`: `rc_demux_read_meta` and `rc_demux_read_packet`. The packet reader
keeps one buffer between calls and grows it with `realloc` when a packet does not
fit. The model keeps the capacity the caller records (`cap`) apart from the size
of the block that was really allocated (`allocated`); `alloc` says which requests
the system grants.
-/

namespace RigControl.Core

open RigControl.Lib

def be16 (b : List UInt8) (p : Nat) : UInt16 := word16 b p

def be32 (b : List UInt8) (p : Nat) : UInt32 := word32 b p

def be64 (b : List UInt8) (p : Nat) : UInt64 := word64 b p

def rcDemuxReadMeta : Decoder Stream RcStatus RcDeviceMeta := do
  let hdr ← rcNetReadFull (4 + 2 + 4 + 2 + 2 + rcDeviceNameLen)
  let out : RcDeviceMeta :=
    { magic := be32 hdr 0
      version := be16 hdr 4
      codecId := be32 hdr 6
      width := be16 hdr 10
      height := be16 hdr 12
      deviceName := ((hdr.drop 14).take rcDeviceNameLen).set (rcDeviceNameLen - 1) 0 }
  if out.magic ≠ rcMetaMagic then throw .errProtocol else return out

/-- It does not stop with `RC_OK`. -/
theorem rcDemuxReadMeta_stops : Stops (· ≠ .ok) rcDemuxReadMeta :=
  (Stops.readItems _ _ fun _ => by decide).bind fun _ => .ite (.throw (by decide)) (.pure _)

/-- A `device_meta` that is handed over arrived whole, and its magic is right. -/
theorem rcDemuxReadMeta_ok {src : Stream} {m : RcDeviceMeta}
    (h : (rcDemuxReadMeta.exec src).1 = .ok m) :
    4 + 2 + 4 + 2 + 2 + rcDeviceNameLen ≤ src.bytes.length ∧ m.magic = rcMetaMagic := by
  obtain ⟨hdr, src1, hread, h⟩ := exec_bind_eq_ok.mp (Prod.ext h rfl)
  refine ⟨?_, ?_⟩
  · by_contra hlt
    obtain ⟨w, hw⟩ := readItems_none (fun _ => RcStatus.errConnect)
      (readExact_short Errno.restart src (Nat.lt_of_not_le hlt)).1
    have hok : (rcNetReadFull (4 + 2 + 4 + 2 + 2 + rcDeviceNameLen)).exec src = _ := hw
    rw [hread] at hok
    cases hok
  · dsimp only at h
    split at h
    · cases h
    · rename_i hmagic
      cases h
      exact not_not.mp hmagic

/-- A packet as it is handed to the caller. -/
structure Packet where
  isConfig : Bool
  isKey : Bool
  ptsUs : Int64
  data : List UInt8
  deriving DecidableEq, Repr

/-- The reader between two packets: the socket, the buffer, and how often it was
reallocated. -/
structure PacketReader where
  src : Stream
  cap : Nat
  allocated : Nat
  reallocs : Nat

/-- A reader before its first packet: `*buf = NULL`, `*cap = 0`. -/
def PacketReader.new (src : Stream) : PacketReader :=
  { src, cap := 0, allocated := 0, reallocs := 0 }

/-- The socket of a reader. -/
def socketPart : Part PacketReader Stream where
  get r := r.src
  set src r := { r with src }
  get_set _ _ := rfl

/-- Which requests for memory the system grants: the number of the call, and the
size it asks for. -/
abbrev Alloc := Nat → Nat → Bool

abbrev ReaderM := Decoder PacketReader RcStatus

/-- `if (*cap < len) { nb = realloc(*buf, len); … *cap = len; }`. -/
def growTo (alloc : Alloc) (len : Nat) : ReaderM Unit := do
  let r ← get
  if r.cap < len then
    set { r with reallocs := r.reallocs + 1 }
    if alloc r.reallocs len then
      modify fun r => { r with allocated := len }
      modify fun r => { r with cap := len }
    else
      throw .errNomem

def packetMax : UInt32 := (32 : UInt32) <<< 20

def rcDemuxReadPacket (alloc : Alloc) : ReaderM Packet := do
  let hdr ← Decoder.on socketPart (rcNetReadFull (8 + 4))
  let flags := be64 hdr 0
  let len := be32 hdr 8
  if len = 0 ∨ packetMax < len then
    throw .errProtocol
  else
    growTo alloc len.toNat
    let data ← Decoder.on socketPart (rcNetReadFull len.toNat)
    return {
      isConfig := flags &&& rcPktFlagConfig ≠ 0
      isKey := flags &&& rcPktFlagKeyframe ≠ 0
      ptsUs := (flags &&& rcPktPtsMask).toInt64
      data }

/-- Read packets until one cannot be read: the packets, the status that ended the
loop, and the reader it leaves. A packet takes bytes, so the loop has ended after
as many turns as there are bytes, and one more. -/
def readPackets (alloc : Alloc) (r : PacketReader) :
    List Packet × Option RcStatus × PacketReader :=
  drain (rcDemuxReadPacket alloc) (r.src.bytes.length + 1) r

/-! ## The buffer -/

theorem exec_growTo (alloc : Alloc) (len : Nat) (r : PacketReader) :
    (growTo alloc len).exec r =
      if r.cap < len then
        if alloc r.reallocs len then
          (.ok (), { r with cap := len, allocated := len, reallocs := r.reallocs + 1 })
        else (.error .errNomem, { r with reallocs := r.reallocs + 1 })
      else (.ok (), r) := by
  by_cases hc : r.cap < len
  · by_cases ha : alloc r.reallocs len <;> simp [growTo, exec_bind, hc, ha]
  · simp [growTo, exec_bind, hc]

/-- The recorded capacity is the size of the block. -/
def PacketReader.Sized (r : PacketReader) : Prop := r.cap = r.allocated

theorem growTo_sized (alloc : Alloc) (len : Nat) :
    Keeps PacketReader.Sized (growTo alloc len) := by
  intro r hr
  rw [exec_growTo]
  split
  · split
    · rfl
    · exact hr
  · exact hr

theorem socket_sized {β : Type} (m : Decoder Stream RcStatus β) :
    Keeps PacketReader.Sized (Decoder.on socketPart m) :=
  .on socketPart m fun _ _ hr => hr

/-- Whatever is read and whichever request is refused, a call leaves the capacity
right. -/
theorem rcDemuxReadPacket_sized (alloc : Alloc) :
    Keeps PacketReader.Sized (rcDemuxReadPacket alloc) := by
  refine (socket_sized _).bind fun hdr => .ite (.throw _) ?_
  exact (growTo_sized alloc _).bind fun _ => (socket_sized _).bind fun _ => .pure _

/-- When every request is granted, no call ends for want of memory. -/
theorem rcDemuxReadPacket_granted {alloc : Alloc} (h : ∀ n len, alloc n len = true) :
    Stops (· ≠ .errNomem) (rcDemuxReadPacket alloc) := by
  have hread (len : Nat) : Stops (· ≠ .errNomem) (Decoder.on socketPart (rcNetReadFull len)) :=
    .on socketPart (.readItems _ _ fun _ => by decide)
  have hgrow (len : Nat) : Stops (· ≠ .errNomem) (growTo alloc len) := by
    intro r w r' hr
    rw [exec_growTo, h] at hr
    split at hr <;> cases hr
  refine (hread _).bind fun hdr => .ite (.throw (by decide)) ?_
  exact (hgrow _).bind fun _ => (hread _).bind fun _ => .pure _

/-- A packet that is handed over is not empty. -/
theorem rcDemuxReadPacket_data_ne {alloc : Alloc} {r r' : PacketReader} {p : Packet}
    (h : (rcDemuxReadPacket alloc).exec r = (.ok p, r')) : p.data ≠ [] := by
  obtain ⟨hdr, r1, -, h⟩ := exec_bind_eq_ok.mp h
  dsimp only at h
  split at h
  · cases h
  · rename_i hlen
    obtain ⟨-, r2, -, h⟩ := exec_bind_eq_ok.mp h
    obtain ⟨data, r3, hdata, h⟩ := exec_bind_eq_ok.mp h
    cases h
    have hl : data.length = (be32 hdr 8).toNat := readItems_length (exec_on_fst hdata)
    intro hnil
    rw [show data = [] from hnil] at hl
    exact hlen (.inl (UInt32.toNat_inj.mp hl.symm))

/-! ## What a call decodes -/

/-- Only memory can stop a call on a whole packet. -/
def noMemory : RcStatus → Prop := fun r => r = .errNomem

def PacketReader.bytes (r : PacketReader) : List UInt8 := r.src.bytes

theorem socket_decodes {xs : List UInt8} {len : Nat} (h : xs.length = len) :
    Decodes noMemory PacketReader.bytes (Decoder.on socketPart (rcNetReadFull len)) xs xs :=
  (rcNetReadFull_decodes h).on socketPart

theorem growTo_decodes (alloc : Alloc) (len : Nat) :
    Decodes noMemory PacketReader.bytes (growTo alloc len) [] () where
  full := by
    intro r rest h
    rw [Refused, exec_growTo]
    split
    · split
      · exact .inl ⟨_, rfl, h⟩
      · exact .inr ⟨_, _, rfl, rfl⟩
    · exact .inl ⟨_, rfl, h⟩
  cut := fun _ hp hne => absurd (List.prefix_nil.mp hp) hne

/-- A call takes one packet off the stream. -/
theorem rcDemuxReadPacket_decodes (alloc : Alloc) (flags : UInt64) {len : UInt32}
    {data : List UInt8} (hlen : len.toNat = data.length) (hpos : 0 < data.length)
    (hmax : len ≤ packetMax) :
    Decodes noMemory PacketReader.bytes (rcDemuxReadPacket alloc)
      (bytes64 flags ++ (bytes32 len ++ data))
      { isConfig := flags &&& rcPktFlagConfig ≠ 0
        isKey := flags &&& rcPktFlagKeyframe ≠ 0
        ptsUs := (flags &&& rcPktPtsMask).toInt64
        data } := by
  have hflags : be64 (bytes64 flags ++ bytes32 len) 0 = flags :=
    word64_append [] (bytes32 len) flags
  have hlen32 : be32 (bytes64 flags ++ bytes32 len) 8 = len := by
    have h := word32_append (bytes64 flags) [] len
    rwa [List.append_nil] at h
  have hok : ¬ (len = 0 ∨ packetMax < len) := by
    rintro (h | h)
    · rw [h] at hlen
      exact absurd hlen (by show ¬ 0 = _; omega)
    · exact absurd hmax (UInt32.not_le.mpr h)
  have hhdr : Decodes noMemory PacketReader.bytes
      (Decoder.on socketPart (rcNetReadFull (8 + 4))) (bytes64 flags ++ bytes32 len)
      (bytes64 flags ++ bytes32 len) := socket_decodes rfl
  rw [← List.append_assoc]
  refine hhdr.bind ?_
  rw [hflags, hlen32, if_neg hok]
  exact (growTo_decodes alloc _).bind ((socket_decodes hlen.symm).then_pure _)

theorem rcDemuxReadPacket_end (alloc : Alloc) {r : PacketReader} (h : r.bytes = []) :
    ∃ w r', (rcDemuxReadPacket alloc).exec r = (.error w, r') ∧ r'.bytes = [] := by
  obtain ⟨w, src, hw, hs⟩ := readItems_end Errno.restart (fun _ => RcStatus.errConnect)
    (n := 8 + 4) (by omega) h
  replace hw : (rcNetReadFull (8 + 4)).exec (socketPart.get r) = (.error w, src) := hw
  exact ⟨w, { r with src }, exec_bind_error (by rw [exec_on, hw]; rfl), hs⟩

end RigControl.Core
