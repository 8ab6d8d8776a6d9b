import RigControl.Lib.Decode

/-!
# Sockets on the Java side

What a Java socket delivers to `read`: bytes in any pieces, the end of the stream,
or an exception. Nothing on this side reads again after an exception.
-/

namespace RigControl.Server

open RigControl.Lib

/-- What a read of a Java socket throws. -/
inductive SocketFault where
  | timeout | reset
  deriving DecidableEq, Repr

abbrev InputStream := Source UInt8 SocketFault

/-- No read is tried again after an exception. -/
def SocketFault.restart : SocketFault → Bool := fun _ => false

abbrev InputStream.bytes (src : InputStream) : List UInt8 := payload SocketFault.restart src

inductive IoException where
  | eof
  | socket (e : SocketFault)
  | textLen (len : Int32)
  | controlType (type : UInt8)
  deriving DecidableEq, Repr

end RigControl.Server
