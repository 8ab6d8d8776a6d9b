import RigControl.Server.Protocol
import RigControl.Server.Socket
import RigControl.Lib.Endian

/-!
# Receiving control messages

`ControlReceiver.java`. `dispatch` reads the fields of one message and acts on
them; every branch reads all its fields before it acts, so the model splits it
into what it reads (`dispatch`, a `ControlMsg`) and what it does
(`ControlMsg.act`). `run` calls it until the socket closes or an `IOException`
ends the loop. A Java `int` or `float` is its bit pattern.
-/

namespace RigControl.Server

open RigControl.Lib

/-- Why `run` leaves its loop. -/
inductive ReceiverEnd where
  | closed
  | io (e : IoException)
  deriving DecidableEq, Repr

abbrev ReceiverM := Decoder InputStream ReceiverEnd

abbrev JavaFloat := UInt32

inductive ControlMsg where
  | mouseMotion (buttons : UInt32) (x y : JavaFloat)
  | mouseButton (action : UInt8) (button buttons : UInt32) (x y : JavaFloat)
  | scroll (x y h v : JavaFloat)
  | key (action : UInt8) (keycode metastate «repeat» : UInt32)
  | text (utf8 : List UInt8)
  | deviceAction (action : UInt8)
  deriving DecidableEq, Repr

/-! ## Reading -/

/-- `in.read()`: at the end of the stream the loop of `run` ends. -/
def read : ReceiverM UInt8 := do
  let b ← readItems SocketFault.restart
    (fun | .fault e _ => .io (.socket e) | _ => .closed) 1
  return b.getD 0 0

/-- `readFully`: an end of the stream is an `EOFException`. -/
def readFully (len : Nat) : ReceiverM (List UInt8) :=
  readItems SocketFault.restart (fun | .fault e _ => .io (.socket e) | _ => .io .eof) len

def readUnsignedByte : ReceiverM UInt8 := do
  let b ← readFully 1
  return b.getD 0 0

def readInt : ReceiverM UInt32 := do
  let b ← readFully 4
  return word32 b 0

def readFloat : ReceiverM JavaFloat := readInt

def dispatch (type : UInt8) : ReceiverM ControlMsg := do
  if type = Protocol.ctrlMouseMotion then
    let buttons ← readInt
    let x ← readFloat
    let y ← readFloat
    return .mouseMotion buttons x y
  else if type = Protocol.ctrlMouseButton then
    let action ← readUnsignedByte
    let button ← readInt
    let buttons ← readInt
    let x ← readFloat
    let y ← readFloat
    return .mouseButton action button buttons x y
  else if type = Protocol.ctrlScroll then
    let x ← readFloat
    let y ← readFloat
    let h ← readFloat
    let v ← readFloat
    return .scroll x y h v
  else if type = Protocol.ctrlKey then
    let action ← readUnsignedByte
    let keycode ← readInt
    let metastate ← readInt
    let «repeat» ← readInt
    return .key action keycode metastate «repeat»
  else if type = Protocol.ctrlText then
    let len ← readInt
    if len.toInt32 < 0 ∨ (1 : Int32) <<< 20 < len.toInt32 then
      throw (.io (.textLen len.toInt32))
    else
      let buf ← readFully len.toInt32.toInt.toNat
      return .text buf
  else if type = Protocol.ctrlDeviceAction then
    let action ← readUnsignedByte
    return .deviceAction action
  else
    throw (.io (.controlType type))

/-- One turn of the loop of `run`. -/
def receive : ReceiverM ControlMsg := do
  let type ← read
  dispatch type

/-- The messages `run` dispatches, why it ends, and what it leaves unread. A turn
takes at least one byte, so the loop has ended after as many turns as there are
bytes, and one more. -/
def run (input : InputStream) : List ControlMsg × Option ReceiverEnd × InputStream :=
  drain receive (input.bytes.length + 1) input

/-! ## Acting -/

/-- `MotionEvent.ACTION_*` of an injected touch. -/
inductive TouchAction where
  | down | move | up
  deriving DecidableEq, Repr

/-- The calls `dispatch` makes with the fields of a message. -/
inductive Injected where
  | touch (action : TouchAction) (x y : JavaFloat)
  | scroll (x y h v : JavaFloat)
  | key (down : Bool) (keycode metastate «repeat» : UInt32)
  | text (utf8 : List UInt8)
  | device (action : UInt8)
  deriving DecidableEq, Repr

/-- A mouse becomes a finger: only the left button touches. -/
def ControlMsg.act : ControlMsg → Option Injected
  | .mouseMotion buttons x y =>
    if buttons &&& Protocol.buttonLeft ≠ 0 then some (.touch .move x y) else none
  | .mouseButton action button _ x y =>
    if button = Protocol.buttonLeft then
      if action = 1 then some (.touch .down x y) else some (.touch .up x y)
    else none
  | .scroll x y h v => some (.scroll x y h v)
  | .key action keycode metastate «repeat» => some (.key (action = 1) keycode metastate «repeat»)
  | .text utf8 => some (.text utf8)
  | .deviceAction action => some (.device action)

/-! ## What the reads decode -/

/-- At the end of the stream the loop of `run` stops. -/
theorem receive_end {src : InputStream} (h : src.bytes = []) :
    ∃ w src', receive.exec src = (.error w, src') ∧ InputStream.bytes src' = [] := by
  obtain ⟨w, src', hw, hs⟩ := readItems_end SocketFault.restart
    (fun | .fault e _ => ReceiverEnd.io (.socket e) | _ => .closed) Nat.one_pos h
  exact ⟨w, src', exec_bind_error (exec_bind_error hw), hs⟩

theorem readFully_decodes {xs : List UInt8} {len : Nat} (h : xs.length = len) :
    Decodes never InputStream.bytes (readFully len) xs xs :=
  .readItems _ _ h

theorem read_decodes (b : UInt8) : Decodes never InputStream.bytes read [b] b := by
  have h := @Decodes.readItems ReceiverEnd UInt8 never _ SocketFault.restart
    (fun | .fault e _ => .io (.socket e) | _ => .closed) [b] 1 rfl
  exact h.then_pure fun b => b.getD 0 0

theorem readUnsignedByte_decodes (b : UInt8) :
    Decodes never InputStream.bytes readUnsignedByte [b] b := by
  have h : Decodes never InputStream.bytes (readFully 1) [b] [b] := readFully_decodes rfl
  exact h.then_pure fun b => b.getD 0 0

theorem readInt_decodes (v : UInt32) : Decodes never InputStream.bytes readInt (bytes32 v) v := by
  have h : Decodes never InputStream.bytes (readFully 4) (bytes32 v) (bytes32 v) := readFully_decodes rfl
  have hv : word32 (bytes32 v) 0 = v := by simpa using word32_append [] [] v
  have h2 : Decodes never InputStream.bytes readInt (bytes32 v) (word32 (bytes32 v) 0) :=
    h.then_pure fun b => word32 b 0
  rwa [hv] at h2

theorem readFloat_decodes (v : JavaFloat) : Decodes never InputStream.bytes readFloat (bytes32 v) v :=
  readInt_decodes v

end RigControl.Server
