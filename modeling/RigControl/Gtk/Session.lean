import RigControl.Agent.Discovery
import RigControl.Core.Deploy
import RigControl.Lib.Decimal
import RigControl.Lib.FirstFree

/-!
# Sessions and their ports

`session.c`. For a device that an agent relays, `alloc_stream_k` picks one of the
device's stream ports that no live session of it uses; the client connects to that port
of the agent and has the server listen on the same one of the device. For a wireless
device `alloc_lan_port` picks a port that no live session has, and client and server
use the same one.
-/

namespace RigControl.Gtk

open RigControl.Lib (CString decimal splitAtColon used_run_le)
open RigControl.Core (RcConfig RcTransport parseAddr)

def rcLanBasePort : Int := 27183
def streamCount : Nat := 4

/-- What a scan of an agent keeps of a line: the address of the agent, the serial for
adb, and the first stream port (0 is none). -/
structure AgentDev where
  host : CString
  serial : CString
  streamBase : Int
  deriving DecidableEq, Repr

/-- What `alloc_stream_k` looks at in a session. -/
structure StreamUse where
  torn : Bool
  streamK : Int
  serialOwned : Option CString
  deriving DecidableEq, Repr

def StreamUse.uses (s : StreamUse) (serial : Option CString) (k : Nat) : Bool :=
  !s.torn && s.streamK = k && s.serialOwned.isSome && s.serialOwned = serial

/-- The first of the stream ports that is free, or none. -/
def allocStreamK (sessions : List StreamUse) (serial : Option CString) : Option Nat :=
  (List.range streamCount).find? fun k => !sessions.any fun s => s.uses serial k

/-- Where the client connects and where the server listens. -/
structure StreamPlan where
  streamK : Nat
  connectHost : CString
  connectPort : Int
  tcpDevicePort : Int
  deriving DecidableEq, Repr

/-- `none` is a session through the adb tunnel. -/
def sessionAgent (sessions : List StreamUse) (serial : Option CString) (ad : AgentDev) :
    Option StreamPlan :=
  if 0 < ad.streamBase then
    (allocStreamK sessions serial).map fun k =>
      ⟨k, ad.host, ad.streamBase + k, rcLanBasePort + k⟩
  else none

theorem sessionAgent_eq_some {sessions : List StreamUse} {serial : Option CString} {ad : AgentDev}
    {plan : StreamPlan} (h : sessionAgent sessions serial ad = some plan) :
    0 < ad.streamBase ∧ plan.streamK < streamCount ∧
      plan.connectPort = ad.streamBase + plan.streamK ∧
      plan.tcpDevicePort = rcLanBasePort + plan.streamK := by
  simp only [sessionAgent] at h
  split at h
  · rename_i hpos
    obtain ⟨k, hk, rfl⟩ := Option.map_eq_some_iff.mp h
    exact ⟨hpos, List.mem_range.mp (List.mem_of_find?_eq_some hk), rfl, rfl⟩
  · cases h

/-! ## `session_new` -/

/-- What the chooser has selected. -/
structure Settings where
  maxSize : Int
  bitRate : Int
  audio : Bool
  control : Bool
  deriving DecidableEq, Repr

/-- The configuration from the environment. The chooser is only shown without
`RC_TCP_ADDR`, and nothing sets a device port. -/
structure Base where
  cfg : RcConfig
  transport : cfg.transport = .usb
  tcpDevicePort : cfg.tcpDevicePort = 0

/-- What of a `Session` has to do with its ports, and its configuration. -/
structure PortSession where
  torn : Bool
  serialOwned : Option CString
  tcpOwned : Option CString
  lanPort : Int
  streamK : Int
  cfg : RcConfig
  deriving DecidableEq, Repr

def PortSession.use (s : PortSession) : StreamUse := ⟨s.torn, s.streamK, s.serialOwned⟩

def lanPortUsed (sessions : List PortSession) (port : Int) : Bool :=
  sessions.any fun s => !s.torn && s.lanPort = port

/-- The first port from the base on that is free. The loop has no end; one port more
than there are sessions is enough (`allocLanPort_eq`). -/
def allocLanPort (sessions : List PortSession) : Int :=
  rcLanBasePort + (((List.range (sessions.length + 1)).find? fun i : Nat =>
    !lanPortUsed sessions (rcLanBasePort + i)).getD 0 : Nat)

/-- `%s:%d`. -/
def address (ip : CString) (port : Int) : CString := ip ++ ':' :: decimal port

/-- What `session_new` makes of the serial and the address, up to `rc_client_create`;
`agentDev` is the entry of the serial in `agent_devs`. -/
def newSession (base : Base) (sel : Settings) (sessions : List PortSession) (agentDev : Option AgentDev)
    (serial tcpAddr : Option CString) : PortSession :=
  let cfg := { base.cfg with
    maxSize := sel.maxSize, bitRate := sel.bitRate, audio := sel.audio, control := sel.control
    serial := serial }
  match tcpAddr with
  | none => ⟨false, serial, none, 0, -1, cfg⟩
  | some addr =>
    let cfg := { cfg with transport := .tcp }
    if addr.contains ':' then
      ⟨false, serial, some addr, 0, -1, { cfg with tcpAddr := some addr }⟩
    else
      match agentDev.filter fun ad => 0 < ad.streamBase with
      | some ad =>
        match sessionAgent (sessions.map PortSession.use) serial { ad with host := addr } with
        | some plan =>
          let withport := address plan.connectHost plan.connectPort
          ⟨false, serial, some withport, 0, plan.streamK,
            { cfg with tcpAddr := some withport, tcpDevicePort := plan.tcpDevicePort }⟩
        | none => ⟨false, serial, none, 0, -1, { cfg with transport := .usb, tcpAddr := none }⟩
      | none =>
        let port := allocLanPort sessions
        let withport := address addr port
        ⟨false, serial, some withport, port, -1, { cfg with tcpAddr := some withport }⟩

/-- The port the server of a session is to listen on in the device: `tcp_device_port`,
or that of `tcp_addr` as the core reads it. -/
def PortSession.listenPort (s : PortSession) : Option Int :=
  match s.cfg.transport with
  | .usb => none
  | .tcp =>
    if 0 < s.cfg.tcpDevicePort then some s.cfg.tcpDevicePort
    else (parseAddr s.cfg.tcpAddr).map (·.2)

/-! ## What the allocators find -/

theorem lanPortUsed_iff {sessions : List PortSession} {port : Int} :
    lanPortUsed sessions port = true ↔ ∃ s ∈ sessions, s.torn = false ∧ s.lanPort = port := by
  simp [lanPortUsed]

/-- The used ports are among those of the live sessions. -/
theorem lanPort_mem {sessions : List PortSession} {port : Int}
    (h : lanPortUsed sessions port = true) :
    port ∈ (sessions.filter fun s => !s.torn).map PortSession.lanPort := by
  obtain ⟨s, hs, htorn, hlan⟩ := lanPortUsed_iff.mp h
  exact List.mem_map.mpr ⟨s, List.mem_filter.mpr ⟨hs, by simp [htorn]⟩, hlan⟩

/-- More ports than sessions cannot all be used. -/
theorem exists_free (sessions : List PortSession) :
    ∃ i < sessions.length + 1, lanPortUsed sessions (rcLanBasePort + (i : Nat)) = false := by
  by_contra hall
  have hused : ∀ i < sessions.length + 1, lanPortUsed sessions (rcLanBasePort + (i : Nat)) = true := by
    intro i hi
    by_contra hfree
    exact hall ⟨i, hi, by simpa using hfree⟩
  have hle := used_run_le (fun y _ => lanPort_mem) hused
  have hfilter := List.length_filter_le (fun s : PortSession => !s.torn) sessions
  simp only [List.length_map] at hle
  omega

/-- `alloc_lan_port` returns a free port, and all before it are used. -/
theorem allocLanPort_eq (sessions : List PortSession) :
    ∃ i : Nat, allocLanPort sessions = rcLanBasePort + i ∧
      lanPortUsed sessions (rcLanBasePort + i) = false ∧
      ∀ j < i, lanPortUsed sessions (rcLanBasePort + (j : Nat)) = true := by
  obtain ⟨n, hn, hfree⟩ := exists_free sessions
  cases hfind : (List.range (sessions.length + 1)).find? fun i : Nat =>
      !lanPortUsed sessions (rcLanBasePort + i) with
  | none =>
    have hnot := List.find?_eq_none.mp hfind n (List.mem_range.mpr hn)
    simp [hfree] at hnot
  | some i =>
    obtain ⟨hi, -, hbefore⟩ := List.find?_range_eq_some.mp hfind
    exact ⟨i, by simp [allocLanPort, hfind], by simpa using hi, fun j hj => by simpa using hbefore j hj⟩

/-- `alloc_stream_k` returns the first stream port no live session of the device has. -/
theorem allocStreamK_eq_some {sessions : List StreamUse} {serial : Option CString} {k : Nat} :
    allocStreamK sessions serial = some k ↔ k < streamCount ∧
      (sessions.any fun s => s.uses serial k) = false ∧
      ∀ j < k, (sessions.any fun s => s.uses serial j) = true := by
  unfold allocStreamK
  rw [List.find?_range_eq_some]
  simp only [Bool.not_eq_true', List.mem_range, Bool.not_not]
  tauto

end RigControl.Gtk
