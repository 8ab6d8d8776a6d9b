import RigControl.Lib.Decimal

/-!
# The tables of the agent, and its calls of adb

`agent.h` and `adb.c`: devices, slots, listeners, `adb_forward` and `verify_guest_adb`.
The outcome of every command and of every `bind` comes from a list of answers, so a
statement about every list is one about every success and failure. The trace keeps
the commands that were run, with their outcomes. A port is an `int`, a C string a list
of characters.
-/

namespace RigControl.Agent

open RigControl.Lib

def defaultTcpipPort : Int := 5555
def defaultAdbBase : Int := 15553
def defaultDiscoveryPort : Int := 8888
/-- `STREAM_BASE`. -/
def streamBase : Int := 27183
def streamCount : Nat := 4
def locOffset : Int := 10000
def maxSlots : Nat := 8
def maxListeners : Nat := 128
def maxFwds : Nat := 128

def loopback : CString := ['1', '2', '7', '.', '0', '.', '0', '.', '1']

/-- The parameters `main` sets once, and the addresses of the host that it found. -/
structure Config where
  hostIps : List CString
  adbBase : Int
  tcpipPort : Int
  noStream : Bool
  discoveryPort : Int

def Config.default (hostIps : List CString) : Config :=
  ⟨hostIps, defaultAdbBase, defaultTcpipPort, false, defaultDiscoveryPort⟩

/-- `g_bind_ips`: at most 15 addresses of the host, and the loopback. -/
def Config.bindIps (cfg : Config) : List CString := cfg.hostIps.take 15 ++ [loopback]

/-- A line of `adb devices -l` in the state `device`. -/
structure Dev where
  serial : CString
  model : CString
  fits : serial.length ≤ 127 ∧ model.length ≤ 95
  deriving DecidableEq

inductive Kind where
  | emulator | usb | wireless
  deriving DecidableEq, Repr

def devKind (serial : CString) : Kind :=
  if ['e', 'm', 'u', 'l', 'a', 't', 'o', 'r', '-'].isPrefixOf serial then .emulator
  else if serial.contains ':' then .wireless
  else .usb

structure Slot where
  serial : CString
  model : CString
  kind : Kind
  adbDstHost : CString
  adbDstPort : Int
  idx : Nat
  adbPort : Int
  streamBase : Int
  present : Bool
  ready : Bool
  reappeared : Bool
  deriving DecidableEq, Repr

/-- A `Listener`; `ip` is what its descriptor is bound to, `group` says which slot's
`stream_groups[k]` it has. -/
structure Listener where
  ip : CString
  pubPort : Int
  dstHost : CString
  dstPort : Int
  group : Option (Nat × Nat)
  isDiscovery : Bool
  deriving DecidableEq, Repr

inductive AdbCmd where
  | forward (serial : CString) (locPort devPort : Int)
  | tcpip (serial : CString) (port : Int)
  | connect (locPort : Int)
  | getState (locPort : Int)
  | disconnect (locPort : Int)
  deriving DecidableEq, Repr

/-- The globals of `discovery.c` and `adb.c`, with the trace and the answers to come. -/
structure Globals where
  started : Bool
  slots : List Slot
  listeners : List Listener
  fwds : List (CString × Int)
  warned : Bool
  trace : List (AdbCmd × Bool)
  answers : List Bool
  deriving DecidableEq, Repr

def Globals.empty : Globals := ⟨false, [], [], [], false, [], []⟩

/-- What the system answers next. -/
def Globals.answer (s : Globals) : Globals × Bool :=
  ({ s with answers := s.answers.tail }, s.answers.headD false)

def runCmd (c : AdbCmd) (s : Globals) : Globals × Bool :=
  let (s, ok) := s.answer
  ({ s with trace := s.trace ++ [(c, ok)] }, ok)

/-- The forwards that were made are kept once for each serial and local port. -/
def adbForward (serial : CString) (locPort devPort : Int) (s : Globals) : Globals × Bool :=
  let (s, ok) := runCmd (.forward serial locPort devPort) s
  if !ok then (s, false)
  else if s.fwds.any fun f => f.2 = locPort && f.1 = serial then (s, true)
  else if s.fwds.length < maxFwds then ({ s with fwds := s.fwds ++ [(serial, locPort)] }, true)
  else (s, true)

def verifyGuestAdb (locPort : Int) (s : Globals) : Globals × Bool :=
  let (s, connected) := runCmd (.connect locPort) s
  let (s, ok) := if connected then runCmd (.getState locPort) s else (s, false)
  let (s, _) := runCmd (.disconnect locPort) s
  (s, ok)

/-! ## The address in a wireless serial -/

/-- Where a wireless serial says the device is; the host must fit in `adb_dst_host`. -/
def wirelessDst (serial : CString) : Option (CString × Int) :=
  match splitAtColon serial with
  | some (host, port) =>
    if host.length = 0 ∨ 64 ≤ host.length then none else some (host, atoi32 port)
  | none => none

end RigControl.Agent
