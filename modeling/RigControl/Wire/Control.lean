import RigControl.Core.Control
import RigControl.Server.ControlReceiver

/-!
# The control channel, end to end

The bytes the `rc_client_send_*` functions write are what `ControlReceiver.run`
reads. The wire form of a call decodes to the message the receiver should see
(`receive_decodes`), and the receiver's loop drains a stream of wire forms, so a
session survives any cut of the stream into reads and loses at its end the one
message that did not arrive whole.
-/

namespace RigControl.Wire

open RigControl.Lib RigControl.Core RigControl.Server

/-- The message the receiver gets for a call: an action is normalised to 0 or 1,
a device action is taken modulo 256. -/
def received : SendCall → ControlMsg
  | .mouseMotion buttons x y => .mouseMotion buttons x y
  | .mouseButton action button buttons x y =>
    .mouseButton (if action ≠ 0 then 1 else 0) button buttons x y
  | .scroll x y hscroll vscroll => .scroll x y hscroll vscroll
  | .key action keycode metastate «repeat» =>
    .key (if action ≠ 0 then 1 else 0) keycode metastate «repeat»
  | .text utf8 => .text utf8.bytes
  | .deviceAction action => .deviceAction (UInt8.ofNat (action.toInt % 256).toNat)

theorem toUInt8_eq_emod (a : Int32) :
    a.toUInt32.toUInt8 = UInt8.ofNat (a.toInt % 256).toNat := by
  apply UInt8.toNat_inj.mp
  have h : a.toInt = if 2 * a.toUInt32.toNat < 2 ^ 32 then (a.toUInt32.toNat : Int)
      else (a.toUInt32.toNat : Int) - ((2 ^ 32 : Nat) : Int) := a.toBitVec.toInt_eq_toNat_cond
  rw [UInt32.toNat_toUInt8, UInt8.toNat_ofNat']
  split at h <;> omega

theorem toInt_textLen {n : Nat} (h : n ≤ textMax) : (UInt32.ofNat n).toInt32.toInt = n := by
  have hn : n ≤ 2 ^ 20 := h
  have h2 : (UInt32.ofNat n).toInt32.toInt = (BitVec.ofNat 32 n).toInt := rfl
  rw [h2, BitVec.toInt_eq_toNat_cond, BitVec.toNat_ofNat, Nat.mod_eq_of_lt (by omega)]
  split <;> omega

/-- What `dispatch` reads of a text within the limit. -/
theorem dispatch_text_decodes {utf8 : List UInt8} (h : utf8.length ≤ textMax) :
    Decodes never InputStream.bytes (dispatch Protocol.ctrlText)
      (bytes32 (UInt32.ofNat utf8.length) ++ utf8) (.text utf8) := by
  have hint := toInt_textLen h
  have hmax : utf8.length ≤ 2 ^ 20 := h
  have hk : Decodes never InputStream.bytes (readFully
      (UInt32.ofNat utf8.length).toInt32.toInt.toNat >>= fun buf => pure (ControlMsg.text buf))
      utf8 (.text utf8) :=
    (readFully_decodes (by rw [hint, Int.toNat_natCast])).then_pure _
  refine (readInt_decodes (UInt32.ofNat utf8.length)).bind (k := fun len =>
    if len.toInt32 < 0 ∨ (1 : Int32) <<< 20 < len.toInt32 then
      throw (.io (.textLen len.toInt32))
    else readFully len.toInt32.toInt.toNat >>= fun buf => pure (ControlMsg.text buf)) ?_
  rw [if_neg]
  · exact hk
  · simp only [Int32.lt_iff_toInt_lt, hint]
    have h20 : ((1 : Int32) <<< 20).toInt = 2 ^ 20 := by decide
    have h0 : (0 : Int32).toInt = 0 := by decide
    omega

/-- **One message.** The receiver takes the bytes of a call off the stream, to the
last one, and gets its fields. -/
theorem receive_decodes {call : SendCall} (h : ∀ s, call = .text s → s.bytes.length ≤ textMax) :
    Decodes never InputStream.bytes receive call.wire (received call) := by
  cases call with
  | mouseMotion buttons x y =>
    exact (read_decodes rcCtrlMouseMotion).bind (k := dispatch) ((readInt_decodes buttons).bind
      ((readFloat_decodes x).bind ((readFloat_decodes y).then_pure _)))
  | mouseButton action button buttons x y =>
    exact (read_decodes rcCtrlMouseButton).bind (k := dispatch)
      ((readUnsignedByte_decodes (actionByte action)).bind ((readInt_decodes button).bind
        ((readInt_decodes buttons).bind ((readFloat_decodes x).bind
          ((readFloat_decodes y).then_pure _)))))
  | scroll x y hscroll vscroll =>
    exact (read_decodes rcCtrlScroll).bind (k := dispatch) ((readFloat_decodes x).bind
      ((readFloat_decodes y).bind ((readFloat_decodes hscroll).bind
        ((readFloat_decodes vscroll).then_pure _))))
  | key action keycode metastate rep =>
    exact (read_decodes rcCtrlKey).bind (k := dispatch)
      ((readUnsignedByte_decodes (actionByte action)).bind ((readInt_decodes keycode).bind
        ((readInt_decodes metastate).bind ((readInt_decodes rep).then_pure _))))
  | text utf8 =>
    exact (read_decodes rcCtrlText).bind (k := dispatch) (dispatch_text_decodes (h utf8 rfl))
  | deviceAction action =>
    have hd : Decodes never InputStream.bytes (dispatch Protocol.ctrlDeviceAction)
        [action.toUInt32.toUInt8] (.deviceAction action.toUInt32.toUInt8) :=
      (readUnsignedByte_decodes _).then_pure _
    have h1 := (read_decodes rcCtrlDeviceAction).bind (k := dispatch) hd
    simp only [received, ← toUInt8_eq_emod]
    exact h1

/-! ## A session -/

/-- The control channel of a client that has just connected. -/
def opened (fd : Nat) : ControlChannel := { cfgControl := true, controlFd := some fd, sent := [] }

def sentCalls (calls : List (SendCall × SendEnv)) : List SendCall := calls.map Prod.fst

/-- The receiver reads what has arrived of the wire forms of `calls`. -/
theorem run_wire {calls : List SendCall}
    (h : ∀ s, SendCall.text s ∈ calls → s.bytes.length ≤ textMax) {src : InputStream}
    (hp : src.bytes <+: calls.flatMap SendCall.wire) :
    (run src).1 = (arrived SendCall.wire calls src.bytes).map received ∧
      (run src).2.1.isSome ∧
      (src.bytes = calls.flatMap SendCall.wire → InputStream.bytes (run src).2.2 = []) := by
  have hdec : ∀ call ∈ calls, Decodes never InputStream.bytes receive call.wire (received call) :=
    fun call hc => receive_decodes fun s hs => h s (hs ▸ hc)
  have hlen : (arrived SendCall.wire calls src.bytes).length ≤ src.bytes.length :=
    arrived_length_le (fun call _ => call.wire_ne_nil) _
  obtain ⟨-, w, hw, hall⟩ := drain_arrived hdec (fun s hs => receive_end hs)
    (src.bytes.length + 1) hp (Nat.lt_succ_of_le hlen)
  exact ⟨(hall id).1, by simp [run, hw], (hall id).2⟩

/-- **The control channel loses, adds and alters nothing.** Whatever calls are made
on a freshly connected client, as long as their texts are within the limit and the
system lets their writes complete, every call succeeds; and whatever part of the
bytes arrives at the receiver, cut in any way, it dispatches the messages that
arrived whole, in order, and no other. When all bytes arrive it dispatches every
message and leaves none. -/
theorem control_round_trip (fd : Nat) (calls : List (SendCall × SendEnv))
    (hs : ∀ p ∈ calls, p.1.Sendable p.2)
    (hw : ∀ p ∈ calls, (rcNetWriteFull p.1.buffer p.2.writes).2 = some .ok) :
    (sendAll (opened fd) calls).2 = calls.map (fun _ => some .ok) ∧
    (∀ src : InputStream, src.bytes = (sendAll (opened fd) calls).1.sent →
      (run src).1 = (sentCalls calls).map received ∧ (run src).2.1.isSome ∧
        InputStream.bytes (run src).2.2 = []) ∧
    ∀ src : InputStream, src.bytes <+: (sendAll (opened fd) calls).1.sent →
      ∃ k ≤ calls.length, (run src).1 = ((sentCalls calls).take k).map received ∧
        (run src).2.1.isSome ∧
        ((sentCalls calls).take k).flatMap SendCall.wire <+: src.bytes ∧
        (k < calls.length →
          src.bytes.length < (((sentCalls calls).take (k + 1)).flatMap SendCall.wire).length) := by
  obtain ⟨hok, hsent⟩ := sendAll_sent (c := opened fd) rfl rfl hs hw
  replace hsent : (sendAll (opened fd) calls).1.sent =
      (sentCalls calls).flatMap SendCall.wire := hsent
  have htext : ∀ s, SendCall.text s ∈ sentCalls calls → s.bytes.length ≤ textMax := by
    intro s h
    obtain ⟨⟨call, env⟩, hp, rfl⟩ := List.mem_map.mp h
    exact (hs _ hp).1
  refine ⟨hok, fun src h => ?_, fun src hp => ?_⟩
  · rw [hsent] at h
    obtain ⟨h1, h2, h3⟩ := @run_wire _ htext src (h ▸ List.prefix_rfl)
    rw [h, arrived_all] at h1
    exact ⟨h1, h2, h3 h⟩
  · rw [hsent] at hp
    obtain ⟨h1, h2, -⟩ := run_wire htext hp
    obtain ⟨k, hk, harr, hle, hnext⟩ := arrived_eq_take SendCall.wire hp
    rw [sentCalls, List.length_map] at hk hnext
    exact ⟨k, hk, by rw [h1]; exact congrArg _ harr, h2, hle, hnext⟩

def hello : CStr := ⟨[104, 105], by decide⟩

/-- A text written in two pieces after an interrupted `write`, then a device action
of 300, that is 44. -/
def helloCalls : List (SendCall × SendEnv) :=
  [(.text hello, { malloc := true, writes := [.fault .eintr, .wrote 3, .wrote 4] }),
    (.deviceAction 300, { malloc := true, writes := [.wrote 2] })]

theorem control_round_trip_hello :
    (sendAll (opened 5) helloCalls).2 = [some .ok, some .ok] ∧
      (run [.data [4, 0], .data [0, 0, 2, 104], .data [105, 5], .data [44]]).1 =
        [.text [104, 105], .deviceAction 44] ∧
      (run [.data [4, 0], .data [0, 0, 2, 104], .data [105, 5]]).1 = [.text [104, 105]] := by
  have h := control_round_trip 5 helloCalls
    (by simp [helloCalls, SendCall.Sendable, hello, textMax])
    (by decide)
  have hsent : (sendAll (opened 5) helloCalls).1.sent = [4, 0, 0, 0, 2, 104, 105, 5, 44] := by
    decide
  refine ⟨h.1, (h.2.1 [.data [4, 0], .data [0, 0, 2, 104], .data [105, 5], .data [44]]
    (by rw [hsent]; rfl)).1, ?_⟩
  obtain ⟨k, hk, hrun, -, hle, hnext⟩ := h.2.2
    [.data [4, 0], .data [0, 0, 2, 104], .data [105, 5]] (by rw [hsent]; decide)
  rw [hrun]
  match k, hk with
  | 0, _ => exact absurd (hnext (by decide)) (by decide)
  | 1, _ => rfl
  | 2, _ => exact absurd hle.length_le (by decide)

end RigControl.Wire
