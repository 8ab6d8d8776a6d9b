/-!
# Constants and status codes of libcore

What `rc_internal.h` and `rc_client.h` define for the other modules: the status
codes, the protocol constants as the C side has them, and the two records read
at the start of a stream.
-/

namespace RigControl.Core

/-- `rc_status`. -/
inductive RcStatus where
  | ok | errGeneric | errInvalidArg | errNoDevice | errAdb | errConnect | errProtocol
  | errDecode | errNomem
  deriving DecidableEq, Repr

def rcMetaMagic : UInt32 := 0x52434E31
def rcProtoVersion : UInt16 := 1

def rcCodecIdH264 : UInt32 := 0x68323634
def rcCodecIdH265 : UInt32 := 0x68323635
def rcCodecIdAv1 : UInt32 := 0x00617631

def rcDeviceNameLen : Nat := 64

def rcPktFlagConfig : UInt64 := (1 : UInt64) <<< 63
def rcPktFlagKeyframe : UInt64 := (1 : UInt64) <<< 62
def rcPktPtsMask : UInt64 := ((1 : UInt64) <<< 62) - 1

def rcCtrlMouseMotion : UInt8 := 0
def rcCtrlMouseButton : UInt8 := 1
def rcCtrlScroll : UInt8 := 2
def rcCtrlKey : UInt8 := 3
def rcCtrlText : UInt8 := 4
def rcCtrlDeviceAction : UInt8 := 5

def rcActionUp : UInt8 := 0
def rcActionDown : UInt8 := 1

def rcButtonLeft : UInt32 := 0x01
def rcButtonRight : UInt32 := 0x02
def rcButtonMiddle : UInt32 := 0x04

/-- `rc_device_meta`. -/
structure RcDeviceMeta where
  magic : UInt32
  version : UInt16
  codecId : UInt32
  width : UInt16
  height : UInt16
  deviceName : List UInt8
  deriving DecidableEq, Repr

end RigControl.Core
