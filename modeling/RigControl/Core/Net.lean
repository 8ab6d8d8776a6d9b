import RigControl.Core.Internal
import RigControl.Lib.Decode

/-!
# Whole reads and writes on a socket

`net.c`: `rc_net_read_full` and `rc_net_write_full` loop until every byte is
through, start again on `EINTR` and give up with `RC_ERR_CONNECT` on an end of
file or any other error.
-/

namespace RigControl.Core

open RigControl.Lib

/-- What `errno` says after a failed call, as far as the loops look at it. -/
inductive Errno where
  | eintr | other
  deriving DecidableEq, Repr

/-- The faults after which the loops make the call again. -/
def Errno.restart : Errno → Bool
  | .eintr => true
  | .other => false

/-- What a socket still delivers. -/
abbrev Stream := Source UInt8 Errno

abbrev Stream.bytes (src : Stream) : List UInt8 := payload Errno.restart src

def rcNetReadFull (len : Nat) : Decoder Stream RcStatus (List UInt8) :=
  readItems Errno.restart (fun _ => .errConnect) len

/-- The bytes written and the status; none while a `write` has not returned. -/
def rcNetWriteFull (buf : List UInt8) (rs : List (WriteRet Errno)) :
    List UInt8 × Option RcStatus :=
  match writeAll Errno.restart buf rs with
  | (sent, .done) => (sent, some .ok)
  | (sent, .failed) => (sent, some .errConnect)
  | (sent, .blocked) => (sent, none)

theorem rcNetReadFull_decodes {refuse : RcStatus → Prop} {xs : List UInt8} {len : Nat}
    (h : xs.length = len) : Decodes refuse Stream.bytes (rcNetReadFull len) xs xs :=
  .readItems _ _ h

/-- `RC_OK` means that the whole buffer is written. -/
theorem rcNetWriteFull_ok {buf : List UInt8} {rs : List (WriteRet Errno)}
    (h : (rcNetWriteFull buf rs).2 = some .ok) : (rcNetWriteFull buf rs).1 = buf := by
  simp only [rcNetWriteFull] at h ⊢
  have hdone := @writeAll_done _ _ Errno.restart buf rs
  rcases hw : writeAll Errno.restart buf rs with ⟨sent, _ | _ | _⟩ <;> simp_all

end RigControl.Core
