import RigControl.Server.Protocol
import RigControl.Lib.Endian

/-!
# Writing the video stream

`DesktopConnection.writeDeviceMeta` and `ScreenEncoder.writePacket`: what they put
on the socket. A Java `int` or `long` is its bit pattern; a shift `>>>` is
unsigned.
-/

namespace RigControl.Server

open RigControl.Lib

/-- The buffer after `putInt`, and the offset behind it. -/
def putInt (b : List UInt8) (p : Nat) (v : UInt32) : List UInt8 × Nat :=
  (patch b p [(v >>> 24).toUInt8, (v >>> 16).toUInt8, (v >>> 8).toUInt8, v.toUInt8], p + 4)

def putShort (b : List UInt8) (p : Nat) (v : UInt32) : List UInt8 × Nat :=
  (patch b p [(v >>> 8).toUInt8, v.toUInt8], p + 2)

def writeDeviceMeta (codecId width height : UInt32) (name : List UInt8) : List UInt8 :=
  let buf := List.replicate (4 + 2 + 4 + 2 + 2 + Protocol.deviceNameLen) 0
  let (buf, p) := putInt buf 0 Protocol.metaMagic
  let (buf, p) := putShort buf p Protocol.version
  let (buf, p) := putInt buf p codecId
  let (buf, p) := putShort buf p width
  let (buf, p) := putShort buf p height
  patch buf p (name.take (min name.length (Protocol.deviceNameLen - 1)))

/-- The header `[pts_flags:u64][len:u32]` of a packet. -/
def packetHdr : Nat := 12

def packetFlags (config key : Bool) (ptsUs : UInt64) : UInt64 :=
  let flags := ptsUs &&& Protocol.pktPtsMask
  let flags := if config then flags ||| Protocol.pktFlagConfig else flags
  if key then flags ||| Protocol.pktFlagKeyframe else flags

/-- `packet` is the encoder's buffer: the payload starts at `packetHdr`. -/
def writePacket (config key : Bool) (ptsUs : UInt64) (packet : List UInt8) (len : UInt32) :
    List UInt8 :=
  let flags := packetFlags config key ptsUs
  let packet := patch packet 0
    ((List.range 8).map fun i => (flags >>> (UInt64.ofNat (56 - 8 * i))).toUInt8)
  let packet := patch packet 8
    [(len >>> 24).toUInt8, (len >>> 16).toUInt8, (len >>> 8).toUInt8, len.toUInt8]
  packet.take (packetHdr + len.toNat)

/-! ## What is on the wire -/

/-- The loop over the eight bytes of the flags. -/
theorem range_bytes64 (f : UInt64) :
    (List.range 8).map (fun i => (f >>> (UInt64.ofNat (56 - 8 * i))).toUInt8) = bytes64 f := rfl

def short (v : UInt32) : List UInt8 := [(v >>> 8).toUInt8, v.toUInt8]

def metaHead (codecId width height : UInt32) : List UInt8 :=
  bytes32 Protocol.metaMagic ++ (short Protocol.version ++ (bytes32 codecId ++
    (short width ++ short height)))

/-- The name as it is kept: at most 63 bytes, with zeros to the end of the field. -/
def nameField (name : List UInt8) : List UInt8 :=
  name.take (min name.length 63) ++ List.replicate (64 - min name.length 63) 0

theorem length_nameField (name : List UInt8) : (nameField name).length = 64 := by
  simp only [nameField, List.length_append, List.length_take, List.length_replicate]
  omega

theorem writeDeviceMeta_eq (codecId width height : UInt32) (name : List UInt8) :
    writeDeviceMeta codecId width height name = metaHead codecId width height ++ nameField name := by
  have hbuf : writeDeviceMeta codecId width height name =
      patch (metaHead codecId width height ++ List.replicate 64 0) 14
        (name.take (min name.length 63)) := rfl
  have hsplit : List.replicate 64 (0 : UInt8) =
      List.replicate (min name.length 63) 0 ++ List.replicate (64 - min name.length 63) 0 := by
    rw [List.replicate_append_replicate]
    congr 1
    omega
  have hmid := patch_mid (p := 14) (metaHead codecId width height)
    (List.replicate (min name.length 63) 0) (List.replicate (64 - min name.length 63) 0)
    (b := name.take (min name.length 63)) rfl (by simp)
  rw [hbuf, hsplit, ← List.append_assoc, hmid, nameField, List.append_assoc]

/-- The header takes the place of the twelve bytes in front of the payload, and what is
behind the payload stays in the buffer. -/
theorem writePacket_eq (config key : Bool) (ptsUs : UInt64) {scratch payload : List UInt8}
    (slack : List UInt8) {len : UInt32} (hscratch : scratch.length = packetHdr)
    (hlen : len.toNat = payload.length) :
    writePacket config key ptsUs (scratch ++ payload ++ slack) len =
      bytes64 (packetFlags config key ptsUs) ++ (bytes32 len ++ payload) := by
  obtain ⟨a, b, hab, ha, hb⟩ : ∃ a b : List UInt8, scratch = a ++ b ∧ a.length = 8 ∧
      b.length = 4 :=
    ⟨scratch.take 8, scratch.drop 8, (List.take_append_drop 8 _).symm,
      by simp [hscratch, packetHdr], by simp [hscratch, packetHdr]⟩
  have h1 (f : UInt64) : patch (a ++ (b ++ (payload ++ slack))) 0 (bytes64 f) =
      bytes64 f ++ (b ++ (payload ++ slack)) :=
    patch_mid (p := 0) [] a (b ++ (payload ++ slack)) rfl (by rw [ha]; rfl)
  have h2 (f : UInt64) (n : UInt32) :
      patch (bytes64 f ++ (b ++ (payload ++ slack))) 8 (bytes32 n) =
        bytes64 f ++ bytes32 n ++ (payload ++ slack) := by
    rw [← List.append_assoc]
    exact patch_mid (bytes64 f) b (payload ++ slack) rfl (by rw [hb]; rfl)
  have hpacket : patch (patch (scratch ++ payload ++ slack) 0
      (bytes64 (packetFlags config key ptsUs))) 8 (bytes32 len) =
      bytes64 (packetFlags config key ptsUs) ++ (bytes32 len ++ payload) ++ slack := by
    simp only [hab, List.append_assoc, h1, h2]
  have hwire : (bytes64 (packetFlags config key ptsUs) ++ (bytes32 len ++ payload)).length =
      packetHdr + len.toNat := by
    rw [hlen]
    simp only [List.length_append, packetHdr]
    show 8 + (4 + _) = _
    omega
  rw [writePacket, range_bytes64]
  show ((patch (patch _ 0 _) 8 (bytes32 len)).take _) = _
  rw [hpacket, ← hwire, List.take_left]

def payloadMax : Nat := 32 <<< 20

/-- A packet as the encoder hands it over, in a buffer that is used again and again:
twelve bytes for the header, the payload, and what is left of a longer packet. -/
structure EncodedPacket where
  config : Bool
  key : Bool
  ptsUs : UInt64
  scratch : List UInt8
  payload : List UInt8
  slack : List UInt8
  scratch_length : scratch.length = packetHdr
  payload_pos : 0 < payload.length
  payload_le : payload.length ≤ payloadMax

namespace EncodedPacket

variable (p : EncodedPacket)

def len : UInt32 := UInt32.ofNat p.payload.length

def written : List UInt8 :=
  writePacket p.config p.key p.ptsUs (p.scratch ++ p.payload ++ p.slack) p.len

/-- The bytes of a packet, field after field. -/
def wire : List UInt8 :=
  bytes64 (packetFlags p.config p.key p.ptsUs) ++ (bytes32 p.len ++ p.payload)

theorem len_toNat : p.len.toNat = p.payload.length := by
  have h := p.payload_le
  rw [len, UInt32.toNat_ofNat', Nat.mod_eq_of_lt]
  simp only [payloadMax] at h
  omega

theorem written_eq_wire : p.written = p.wire :=
  writePacket_eq p.config p.key p.ptsUs p.slack p.scratch_length p.len_toNat

end EncodedPacket

end RigControl.Server
