/-!
# Protocol constants of rc-server

`Protocol.java`. The desktop has its own copy of these numbers in
`rc_internal.h`; that the two agree is a consequence of the round trips over the
wire, not an assumption.
-/

namespace RigControl.Server.Protocol

def metaMagic : UInt32 := 0x52434E31
def version : UInt32 := 1

def deviceNameLen : Nat := 64

def pktFlagConfig : UInt64 := (1 : UInt64) <<< 63
def pktFlagKeyframe : UInt64 := (1 : UInt64) <<< 62
def pktPtsMask : UInt64 := ((1 : UInt64) <<< 62) - 1

def ctrlMouseMotion : UInt8 := 0
def ctrlMouseButton : UInt8 := 1
def ctrlScroll : UInt8 := 2
def ctrlKey : UInt8 := 3
def ctrlText : UInt8 := 4
def ctrlDeviceAction : UInt8 := 5

def buttonLeft : UInt32 := 0x01

def lanTokenLen : Nat := 32

end RigControl.Server.Protocol
