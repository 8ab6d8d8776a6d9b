import RigControl.Core.Demuxer
import RigControl.Lib.CString
import RigControl.Lib.Ledger
import RigControl.Lib.Triple

/-!
# The client, and what it asks of the system

`struct rc_client`, and the calls of `net.c` and `adb.c` by which a session gets
descriptors, runs adb and starts `rc-server`. An `Env` has the outcome of every call,
by the number of calls before it, so a statement about every `Env` is one about every
combination of outcomes. What the system keeps is in `Os`: each descriptor and each
server process has a number of its own, and the ledgers say which were closed and
reaped, and how often. A field that holds `-1`, or `0` for the pid, is none.
-/

namespace RigControl.Core

open RigControl.Lib

inductive RcTransport where
  | usb | tcp
  deriving DecidableEq, Repr

inductive RcCodec where
  | h264 | h265 | av1
  deriving DecidableEq, Repr

/-- `rc_config`. -/
structure RcConfig where
  serial : Option CString
  transport : RcTransport
  tcpAddr : Option CString
  tcpDevicePort : Int
  maxSize : Int
  bitRate : Int
  maxFps : Int
  codec : RcCodec
  control : Bool
  audio : Bool
  deriving DecidableEq, Repr

/-- The parameters `rc_adb_run_server` starts `rc-server` with. -/
structure ServerArgs where
  serial : Option CString
  socketName : CString
  maxSize : Int
  bitRate : Int
  maxFps : Int
  codec : RcCodec
  audio : Bool
  control : Bool
  tcp : Bool
  port : Option Int
  token : Option CString
  deriving DecidableEq, Repr

/-- What a descriptor was opened as. -/
inductive FdKind where
  | listen | accepted | tcp | random
  deriving DecidableEq, Repr

structure Os where
  fds : Ledger FdKind
  procs : Ledger ServerArgs
  /-- The adb reverses there are: the serial, and the name on the device. -/
  reverses : List (Option CString × CString)
  now : Nat
  calls : Nat
  deriving DecidableEq, Repr

def Os.empty : Os := ⟨.empty, .empty, [], 0, 0⟩

/-- What `rc_emit_status` reports: a text, or the name the device sent. -/
inductive StatusMsg where
  | text (s : String)
  | name (bytes : List UInt8)
  deriving DecidableEq, Repr

/-- `struct rc_client`. -/
structure RcClient where
  cfg : RcConfig
  videoFd : Option Nat
  audioFd : Option Nat
  controlFd : Option Nat
  listenFd : Option Nat
  deviceMeta : RcDeviceMeta
  haveMeta : Bool
  serverPid : Option Nat
  socketName : CString
  lanToken : CString
  running : Bool
  abortRequested : Bool
  decoderDesc : Option String
  transportDesc : Option String
  netThread : Bool
  audioThread : Bool
  decoder : Bool
  audioPlayer : Bool
  emitted : List (RcStatus × StatusMsg)
  os : Os
  deriving DecidableEq, Repr

/-- `rc_client_create`; `socketName` is what it made of the pid and its counter. -/
def rcClientCreate (cfg : RcConfig) (socketName : CString) : RcClient :=
  { cfg, socketName
    videoFd := none
    audioFd := none
    controlFd := none
    listenFd := none
    deviceMeta := ⟨0, 0, 0, 0, 0, []⟩
    haveMeta := false
    serverPid := none
    lanToken := []
    running := false
    abortRequested := false
    decoderDesc := none
    transportDesc := none
    netThread := false
    audioThread := false
    decoder := false
    audioPlayer := false
    emitted := []
    os := .empty }

/-- The fields that hold a descriptor. -/
inductive Sock where
  | video | audio | control | listen
  deriving DecidableEq, Repr

def RcClient.sock (c : RcClient) : Sock → Option Nat
  | .video => c.videoFd
  | .audio => c.audioFd
  | .control => c.controlFd
  | .listen => c.listenFd

def RcClient.setSock (c : RcClient) (k : Sock) (fd : Option Nat) : RcClient :=
  match k with
  | .video => { c with videoFd := fd }
  | .audio => { c with audioFd := fd }
  | .control => { c with controlFd := fd }
  | .listen => { c with listenFd := fd }

/-! ## Outcomes -/

inductive AdbCmd where
  | connect (addr : CString)
  | getState (addr : CString)
  | push (serial : Option CString) (localPath : CString)
  | reverse (serial : Option CString) (remote : CString) (localPort : Int)
  | reverseRemove (serial : Option CString) (remote : CString)
  deriving DecidableEq, Repr

inductive PollRet where
  | ready | error | timeout
  deriving DecidableEq, Repr

/-- How far a socket came: not even opened, not bound and listening, or the port. -/
inductive ListenRet where
  | noSocket | failed | port (p : Int)
  deriving DecidableEq, Repr

inductive ConnectRet where
  | noSocket | failed | connected
  deriving DecidableEq, Repr

structure Env where
  serverPath : CString
  /-- `rc_client_abort` was called before the flag is read. -/
  abort : Nat → Bool
  /-- The command ended in time with exit code 0. -/
  adb : AdbCmd → Nat → Bool
  spawn : ServerArgs → Nat → Bool
  /-- `waitpid` with `WNOHANG` finds the server dead. -/
  exited : Nat → Bool
  poll : Nat → PollRet
  listen : Nat → ListenRet
  accept : Nat → Bool
  /-- For each address of the host, how far the connect came. -/
  connect : CString → Int → Int → Nat → List ConnectRet
  tokenSent : Nat → Bool
  /-- What the video socket delivers. -/
  stream : Nat → Stream
  /-- The milliseconds since the clock was read before. -/
  lapse : Nat → Nat
  urandom : Nat → Bool
  random : Nat → Fin 16 → UInt8
  /-- The decoder, if there is one, by the name of its hardware backend. -/
  decoder : RcCodec → Nat → Option (Option String)
  thread : Nat → Bool
  /-- At its end the net thread leaves a decoder, the audio thread a player. -/
  decoderLeft : Nat → Bool
  playerLeft : Nat → Bool

/-- `rc_adb_reverse_remove` always works. -/
def Env.RemoveWorks (env : Env) : Prop :=
  ∀ serial remote n, env.adb (.reverseRemove serial remote) n = true

abbrev ClientM := Decoder RcClient RcStatus

/-- The outcome of a call. -/
def ask {α : Type} (f : Nat → α) : ClientM α := do
  let c ← get
  set { c with os.calls := c.os.calls + 1 }
  return f c.os.calls

def rcEmitStatus (code : RcStatus) (msg : StatusMsg) : ClientM Unit :=
  modify fun c => { c with emitted := c.emitted ++ [(code, msg)] }

def newFd (kind : FdKind) : ClientM Nat := do
  let c ← get
  set { c with os.fds := c.os.fds.acquire kind }
  return c.os.fds.next

def closeFd (fd : Nat) : ClientM Unit :=
  modify fun c => { c with os.fds := c.os.fds.release fd }

variable (env : Env)

/-- Whether the flag `abort_requested` is set by now. -/
def abortRequested : ClientM Bool := do
  let now ← ask env.abort
  modify fun c => { c with abortRequested := c.abortRequested || now }
  return (← get).abortRequested

def nowMs : ClientM Nat := do
  let d ← ask env.lapse
  modify fun c => { c with os.now := c.os.now + d }
  return (← get).os.now

def usleepMs (ms : Nat) : ClientM Unit :=
  modify fun c => { c with os.now := c.os.now + ms }

/-! ## `net.c` -/

def rcNetListenLoopback : ClientM (Option (Nat × Int)) := do
  match ← ask env.listen with
  | .noSocket => return none
  | .failed =>
    let fd ← newFd .listen
    closeFd fd
    return none
  | .port p =>
    let fd ← newFd .listen
    return some (fd, p)

def rcNetAccept : ClientM (Option Nat) := do
  if ← ask env.accept then
    let fd ← newFd .accepted
    return some fd
  else
    return none

def connectAddrTimeout : ConnectRet → ClientM (Option Nat)
  | .noSocket => return none
  | .failed => do
    let fd ← newFd .tcp
    closeFd fd
    return none
  | .connected => do
    let fd ← newFd .tcp
    return some fd

/-- One address after the other, until one connects. -/
def connectFirst : List ConnectRet → ClientM (Option Nat)
  | [] => return none
  | ai :: ais => do
    match ← connectAddrTimeout ai with
    | some fd => return some fd
    | none => connectFirst ais

def rcNetConnectTcp (host : CString) (port timeoutMs : Int) : ClientM (Option Nat) := do
  let timeoutMs := if timeoutMs ≤ 0 then 5000 else timeoutMs
  connectFirst (← ask (env.connect host port timeoutMs))

/-! ## `adb.c` -/

def adbRun (cmd : AdbCmd) : ClientM RcStatus := do
  if ← ask (env.adb cmd) then return .ok else return .errAdb

/-- `adb connect` may exit with 0 when it failed, so the state is asked for too. -/
def rcAdbConnect (addr : CString) : ClientM RcStatus := do
  if addr = [] then return .errInvalidArg
  else
    let r ← adbRun env (.connect addr)
    if r ≠ .ok then return r else adbRun env (.getState addr)

def rcAdbPush (serial : Option CString) : ClientM RcStatus :=
  adbRun env (.push serial env.serverPath)

def rcAdbReverse (serial : Option CString) (remote : CString) (localPort : Int) :
    ClientM RcStatus := do
  let r ← adbRun env (.reverse serial remote localPort)
  if r = .ok then
    modify fun c => { c with os.reverses := c.os.reverses.insert (serial, remote) }
  return r

def rcAdbReverseRemove (serial : Option CString) (remote : CString) : ClientM RcStatus := do
  let r ← adbRun env (.reverseRemove serial remote)
  if r = .ok then
    modify fun c => { c with os.reverses := c.os.reverses.filter (· ≠ (serial, remote)) }
  return r

def rcLocalabstractName : CString := ['r', 'i', 'g', 'c', 'o', 'n', 't', 'r', 'o', 'l']

def serverArgs (serial : Option CString) (cfg : RcConfig) (socketName : Option CString)
    (tcpPort : Int) (token : Option CString) : ServerArgs :=
  { serial
    socketName := socketName.getD rcLocalabstractName
    maxSize := cfg.maxSize
    bitRate := if 0 < cfg.bitRate then cfg.bitRate else 8000000
    maxFps := if 0 < cfg.maxFps then cfg.maxFps else 60
    codec := cfg.codec
    audio := cfg.audio
    control := cfg.control
    tcp := 0 < tcpPort
    port := if 0 < tcpPort then some tcpPort else none
    token := token.filter (· ≠ []) }

/-- `rc_adb_run_server`, with `&c->server_pid` for the pid. -/
def rcAdbRunServer (serial : Option CString) (cfg : RcConfig) (socketName : Option CString)
    (tcpPort : Int) (token : Option CString) : ClientM RcStatus := do
  let args := serverArgs serial cfg socketName tcpPort token
  if ← ask (env.spawn args) then
    modify fun c => { c with
      serverPid := some c.os.procs.next
      os.procs := c.os.procs.acquire args }
    return .ok
  else
    return .errAdb

/-! ## What the calls keep -/

theorem ask_spec {P : RcClient → Prop} {E : RcStatus → RcClient → Prop} {α β : Type}
    {Q : β → RcClient → Prop} {f : Nat → α} {k : α → ClientM β}
    (hP : ∀ c n, P c → P { c with os.calls := n }) (h : ∀ n, Triple P (k (f n)) Q E) :
    Triple P (ask f >>= k) Q E :=
  fun c hc => h c.os.calls _ (hP c _ hc)

theorem emit_spec {P : RcClient → Prop} {E : RcStatus → RcClient → Prop}
    (hP : ∀ c e, P c → P { c with emitted := e }) (code : RcStatus) (msg : StatusMsg) :
    Triple P (rcEmitStatus code msg) (fun _ => P) E :=
  .modify fun c hc => hP c _ hc

/-- The descriptors that a function holds and the client does not, with their kinds. -/
abbrev Loose := List (Nat × FdKind)

/-- An assertion about the client and the loose descriptors that no call breaks. -/
structure Neutral (I : Loose → RcClient → Prop) : Prop where
  calls : ∀ l c n, I l c → I l { c with os.calls := n }
  clock : ∀ l c d, I l c → I l { c with os.now := c.os.now + d }
  emit : ∀ l c e, I l c → I l { c with emitted := e }
  abort : ∀ l c b, I l c → I l { c with abortRequested := b }
  received : ∀ l c m, I l c → I l { c with deviceMeta := m }
  acquire : ∀ l c kind, I l c →
    I ((c.os.fds.next, kind) :: l) { c with os.fds := c.os.fds.acquire kind }
  release : ∀ l c fd kind, I ((fd, kind) :: l) c →
    I l { c with os.fds := c.os.fds.release fd }
  reap : ∀ l c pid, c.serverPid = some pid → I l c →
    I l { c with serverPid := none, os.procs := c.os.procs.release pid }

/-- A descriptor that a call may have returned. -/
def looseOf (kind : FdKind) (r : Option Nat) : Loose := r.toList.map (·, kind)

theorem Neutral.and {I J : Loose → RcClient → Prop} (hI : Neutral I) (hJ : Neutral J) :
    Neutral fun l c => I l c ∧ J l c where
  calls l c n h := ⟨hI.calls l c n h.1, hJ.calls l c n h.2⟩
  clock l c d h := ⟨hI.clock l c d h.1, hJ.clock l c d h.2⟩
  emit l c e h := ⟨hI.emit l c e h.1, hJ.emit l c e h.2⟩
  abort l c b h := ⟨hI.abort l c b h.1, hJ.abort l c b h.2⟩
  received l c m h := ⟨hI.received l c m h.1, hJ.received l c m h.2⟩
  acquire l c kind h := ⟨hI.acquire l c kind h.1, hJ.acquire l c kind h.2⟩
  release l c fd kind h := ⟨hI.release l c fd kind h.1, hJ.release l c fd kind h.2⟩
  reap l c pid hp h := ⟨hI.reap l c pid hp h.1, hJ.reap l c pid hp h.2⟩

namespace Neutral

variable {I : Loose → RcClient → Prop} (hI : Neutral I) {l : Loose} {E : RcStatus → RcClient → Prop}
  {β : Type} {Q : β → RcClient → Prop}

include hI

theorem ask_bind {α : Type} {f : Nat → α} {k : α → ClientM β}
    (h : ∀ n, Triple (I l) (k (f n)) Q E) : Triple (I l) (ask f >>= k) Q E :=
  ask_spec (hI.calls l) h

theorem newFd_bind {kind : FdKind} {k : Nat → ClientM β}
    (h : ∀ fd, Triple (I ((fd, kind) :: l)) (k fd) Q E) : Triple (I l) (newFd kind >>= k) Q E :=
  fun c hc => h c.os.fds.next _ (hI.acquire l c kind hc)

theorem closeFd_spec (fd : Nat) (kind : FdKind) :
    Triple (I ((fd, kind) :: l)) (closeFd fd) (fun _ => I l) E :=
  .modify fun c hc => hI.release l c fd kind hc

theorem rcEmitStatus_spec (code : RcStatus) (msg : StatusMsg) :
    Triple (I l) (rcEmitStatus code msg) (fun _ => I l) E :=
  emit_spec (hI.emit l) code msg

theorem abortRequested_spec : Triple (I l) (abortRequested env) (fun _ => I l) E :=
  hI.ask_bind fun _ => .bind (Q := fun _ => I l) (.modify fun c hc => hI.abort l c _ hc) fun _ =>
    .get_bind fun _ _ => .pure fun _ hc => hc

theorem nowMs_spec : Triple (I l) (nowMs env) (fun t c => c.os.now = t ∧ I l c) E :=
  hI.ask_bind fun _ => .bind (Q := fun _ => I l) (.modify fun c hc => hI.clock l c _ hc) fun _ =>
    fun _ hc => ⟨rfl, hc⟩

theorem rcNetAccept_spec :
    Triple (I l) (rcNetAccept env) (fun r => I (looseOf .accepted r ++ l)) E := by
  refine hI.ask_bind fun n => ?_
  cases env.accept n with
  | true => exact hI.newFd_bind fun fd => .pure fun _ hc => hc
  | false => exact .pure fun _ hc => hc

theorem rcNetListenLoopback_spec :
    Triple (I l) (rcNetListenLoopback env) (fun r => I (looseOf .listen (r.map Prod.fst) ++ l)) E := by
  refine hI.ask_bind fun n => ?_
  cases env.listen n with
  | noSocket => exact .pure fun _ hc => hc
  | failed =>
    exact hI.newFd_bind fun fd => (hI.closeFd_spec fd .listen).bind fun _ => .pure fun _ hc => hc
  | port p => exact hI.newFd_bind fun fd => .pure fun _ hc => hc

theorem connectAddrTimeout_spec (ai : ConnectRet) :
    Triple (I l) (connectAddrTimeout ai) (fun r => I (looseOf .tcp r ++ l)) E := by
  cases ai with
  | noSocket => exact .pure fun _ hc => hc
  | failed =>
    exact hI.newFd_bind fun fd => (hI.closeFd_spec fd .tcp).bind fun _ => .pure fun _ hc => hc
  | connected => exact hI.newFd_bind fun fd => .pure fun _ hc => hc

theorem connectFirst_spec (ais : List ConnectRet) :
    Triple (I l) (connectFirst ais) (fun r => I (looseOf .tcp r ++ l)) E := by
  induction ais with
  | nil => exact .pure fun _ hc => hc
  | cons ai ais ih =>
    refine (hI.connectAddrTimeout_spec ai).bind fun r => ?_
    cases r with
    | none => exact ih
    | some fd => exact .pure fun _ hc => hc

theorem rcNetConnectTcp_spec (host : CString) (port timeoutMs : Int) :
    Triple (I l) (rcNetConnectTcp env host port timeoutMs) (fun r => I (looseOf .tcp r ++ l)) E :=
  hI.ask_bind fun _ => hI.connectFirst_spec _

theorem adbRun_spec (cmd : AdbCmd) : Triple (I l) (adbRun env cmd) (fun _ => I l) E :=
  hI.ask_bind fun _ => .ite (fun _ => .pure fun _ hc => hc) fun _ => .pure fun _ hc => hc

theorem rcAdbConnect_spec (addr : CString) :
    Triple (I l) (rcAdbConnect env addr) (fun _ => I l) E :=
  .ite (fun _ => .pure fun _ hc => hc) fun _ => (hI.adbRun_spec env _).bind fun _ =>
    .ite (fun _ => .pure fun _ hc => hc) fun _ => hI.adbRun_spec env _

end Neutral

end RigControl.Core
