import RigControl.Core.Net
import RigControl.Lib.Endian

/-!
# Sending control messages

The `rc_client_send_*` functions of `client.c` and `rc_control_send` of
`control_msg.c`. Each function fills a buffer by byte offsets and hands it to
`rc_control_send`, which refuses it when the control channel is off or not
connected and otherwise writes it whole. A float argument is its bit pattern.
-/

namespace RigControl.Core

open RigControl.Lib

/-- A C string: bytes up to a terminator that is not part of them. -/
structure CStr where
  bytes : List UInt8
  noNul : (0 : UInt8) ∉ bytes
  deriving DecidableEq

abbrev FloatBits := UInt32

/-- The buffer after `put_u32(b + p, v)`. -/
def putU32 (b : List UInt8) (p : Nat) (v : UInt32) : List UInt8 := patch b p (bytes32 v)

def putF32 (b : List UInt8) (p : Nat) (f : FloatBits) : List UInt8 := putU32 b p f

/-- A call of one of the functions that send a control message, without its client. -/
inductive SendCall where
  | mouseMotion (buttons : UInt32) (x y : FloatBits)
  | mouseButton (action : Int32) (button buttons : UInt32) (x y : FloatBits)
  | scroll (x y hscroll vscroll : FloatBits)
  | key (action : Int32) (keycode metastate «repeat» : UInt32)
  | text (utf8 : CStr)
  | deviceAction (action : Int32)
  deriving DecidableEq

/-- `(uint8_t)(action ? RC_ACTION_DOWN : RC_ACTION_UP)`. -/
def actionByte (action : Int32) : UInt8 := if action ≠ 0 then rcActionDown else rcActionUp

def textMax : Nat := 1 <<< 20

/-- The buffer a call hands to `rc_control_send`. -/
def SendCall.buffer : SendCall → List UInt8
  | .mouseMotion buttons x y =>
    let b := List.replicate (1 + 4 + 4 + 4) 0
    let b := patch b 0 [rcCtrlMouseMotion]
    let b := putU32 b 1 buttons
    let b := putF32 b 5 x
    putF32 b 9 y
  | .mouseButton action button buttons x y =>
    let b := List.replicate (1 + 1 + 4 + 4 + 4 + 4) 0
    let b := patch b 0 [rcCtrlMouseButton]
    let b := patch b 1 [actionByte action]
    let b := putU32 b 2 button
    let b := putU32 b 6 buttons
    let b := putF32 b 10 x
    putF32 b 14 y
  | .scroll x y hscroll vscroll =>
    let b := List.replicate (1 + 4 + 4 + 4 + 4) 0
    let b := patch b 0 [rcCtrlScroll]
    let b := putF32 b 1 x
    let b := putF32 b 5 y
    let b := putF32 b 9 hscroll
    putF32 b 13 vscroll
  | .key action keycode metastate «repeat» =>
    let b := List.replicate (1 + 1 + 4 + 4 + 4) 0
    let b := patch b 0 [rcCtrlKey]
    let b := patch b 1 [actionByte action]
    let b := putU32 b 2 keycode
    let b := putU32 b 6 metastate
    putU32 b 10 «repeat»
  | .text utf8 =>
    let n := utf8.bytes.length
    let b := List.replicate (1 + 4 + n) 0
    let b := patch b 0 [rcCtrlText]
    let b := putU32 b 1 (UInt32.ofNat n)
    patch b 5 utf8.bytes
  | .deviceAction action =>
    let b := List.replicate 2 0
    let b := patch b 0 [rcCtrlDeviceAction]
    patch b 1 [action.toUInt32.toUInt8]

/-- The control channel of an `rc_client`: its settings, and what went out on it. -/
structure ControlChannel where
  cfgControl : Bool
  controlFd : Option Nat
  sent : List UInt8

/-- What the system answers to one call: whether `malloc` has memory, and the
results of `write`. -/
structure SendEnv where
  malloc : Bool
  writes : List (WriteRet Errno)

def rcControlSend (c : ControlChannel) (env : SendEnv) (buf : List UInt8) :
    ControlChannel × Option RcStatus :=
  if !c.cfgControl then (c, some .errInvalidArg)
  else
    match c.controlFd with
    | none => (c, some .errConnect)
    | some _ =>
      let r := rcNetWriteFull buf env.writes
      ({ c with sent := c.sent ++ r.1 }, r.2)

/-- Run one call. Only a text is checked and allocated before it is sent. -/
def SendCall.run (call : SendCall) (c : ControlChannel) (env : SendEnv) :
    ControlChannel × Option RcStatus :=
  match call with
  | .text utf8 =>
    if utf8.bytes.length > textMax then (c, some .errInvalidArg)
    else if !env.malloc then (c, some .errNomem)
    else rcControlSend c env (SendCall.text utf8).buffer
  | call => rcControlSend c env call.buffer

/-- Run calls one after the other; the client and the status of each call. -/
def sendAll (c : ControlChannel) :
    List (SendCall × SendEnv) → ControlChannel × List (Option RcStatus)
  | [] => (c, [])
  | (call, env) :: calls =>
    let r := call.run c env
    let rest := sendAll r.1 calls
    (rest.1, r.2 :: rest.2)

/-! ## What the buffers hold -/

/-- The bytes of a call, field after field. -/
def SendCall.wire : SendCall → List UInt8
  | .mouseMotion buttons x y => rcCtrlMouseMotion :: bytes32 buttons ++ bytes32 x ++ bytes32 y
  | .mouseButton action button buttons x y =>
    rcCtrlMouseButton :: actionByte action :: bytes32 button ++ bytes32 buttons ++ bytes32 x ++
      bytes32 y
  | .scroll x y hscroll vscroll =>
    rcCtrlScroll :: bytes32 x ++ bytes32 y ++ bytes32 hscroll ++ bytes32 vscroll
  | .key action keycode metastate «repeat» =>
    rcCtrlKey :: actionByte action :: bytes32 keycode ++ bytes32 metastate ++ bytes32 «repeat»
  | .text utf8 => rcCtrlText :: bytes32 (UInt32.ofNat utf8.bytes.length) ++ utf8.bytes
  | .deviceAction action => [rcCtrlDeviceAction, action.toUInt32.toUInt8]

/-- The offsets of every layout are right: a buffer is its fields in order. -/
theorem SendCall.buffer_eq_wire (call : SendCall) : call.buffer = call.wire := by
  cases call with
  | text utf8 =>
    have h0 : patch (List.replicate (1 + 4 + utf8.bytes.length) 0) 0 [rcCtrlText] =
        [rcCtrlText] ++ List.replicate 4 0 ++ List.replicate utf8.bytes.length 0 := by
      rw [List.replicate_add]
      rfl
    have h1 (n : UInt32) :
        patch ([rcCtrlText] ++ List.replicate 4 0 ++ List.replicate utf8.bytes.length 0) 1
          (bytes32 n) = [rcCtrlText] ++ bytes32 n ++ List.replicate utf8.bytes.length 0 :=
      patch_mid _ _ _ rfl rfl
    have h2 (n : UInt32) :
        patch ([rcCtrlText] ++ bytes32 n ++ List.replicate utf8.bytes.length 0 ++ []) 5
          utf8.bytes = [rcCtrlText] ++ bytes32 n ++ utf8.bytes ++ [] :=
      patch_mid _ _ _ rfl (by simp)
    simp only [SendCall.buffer, SendCall.wire, putU32, h0, h1]
    simpa using h2 (UInt32.ofNat utf8.bytes.length)
  | _ => rfl

theorem SendCall.wire_ne_nil (call : SendCall) : call.wire ≠ [] := by
  cases call <;> simp [SendCall.wire]

/-! ## What a call writes -/

/-- A call that can be sent: a text is not too long and there is memory for it. -/
def SendCall.Sendable (call : SendCall) (env : SendEnv) : Prop :=
  match call with
  | .text utf8 => utf8.bytes.length ≤ textMax ∧ env.malloc = true
  | _ => True

theorem SendCall.run_sendable {call : SendCall} {env : SendEnv} (h : call.Sendable env)
    (c : ControlChannel) : call.run c env = rcControlSend c env call.buffer := by
  cases call with
  | text utf8 =>
    obtain ⟨hl, hm⟩ := h
    simp only [SendCall.run, hm, Nat.not_lt.mpr hl, ↓reduceIte, Bool.not_true,
      Bool.false_eq_true]
  | _ => rfl

theorem rcControlSend_open {c : ControlChannel} {fd : Nat} (hc : c.cfgControl = true)
    (hfd : c.controlFd = some fd) (env : SendEnv) (buf : List UInt8) :
    rcControlSend c env buf = ({ c with sent := c.sent ++ (rcNetWriteFull buf env.writes).1 },
      (rcNetWriteFull buf env.writes).2) := by
  simp only [rcControlSend, hc, hfd, Bool.not_true, Bool.false_eq_true, ↓reduceIte]

/-- A sequence of calls whose writes all complete puts its bytes on the wire, call
after call. -/
theorem sendAll_sent {c : ControlChannel} {fd : Nat} (hc : c.cfgControl = true)
    (hfd : c.controlFd = some fd) {calls : List (SendCall × SendEnv)}
    (hs : ∀ p ∈ calls, p.1.Sendable p.2)
    (hw : ∀ p ∈ calls, (rcNetWriteFull p.1.buffer p.2.writes).2 = some .ok) :
    (sendAll c calls).2 = calls.map (fun _ => some .ok) ∧
      (sendAll c calls).1.sent = c.sent ++ (calls.map Prod.fst).flatMap SendCall.wire := by
  induction calls generalizing c with
  | nil => simp [sendAll]
  | cons p calls ih =>
    obtain ⟨call, env⟩ := p
    have hok : (rcNetWriteFull call.buffer env.writes).2 = some .ok := hw _ List.mem_cons_self
    have hrun : call.run c env = rcControlSend c env call.buffer :=
      SendCall.run_sendable (hs _ List.mem_cons_self) c
    rw [rcControlSend_open hc hfd] at hrun
    have hsent : (rcNetWriteFull call.buffer env.writes).1 = call.wire := by
      rw [rcNetWriteFull_ok hok, SendCall.buffer_eq_wire]
    obtain ⟨h1, h2⟩ := ih (c := (call.run c env).1) (by rw [hrun]; exact hc)
      (by rw [hrun]; exact hfd) (fun q hq => hs q (List.mem_cons_of_mem _ hq))
      (fun q hq => hw q (List.mem_cons_of_mem _ hq))
    simp only [sendAll, List.map_cons, List.flatMap_cons, h1, h2]
    rw [hrun]
    simp only [hok, hsent, List.append_assoc, and_self]

end RigControl.Core
