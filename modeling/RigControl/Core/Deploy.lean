import RigControl.Core.Client
import RigControl.Lib.Decimal

/-!
# Starting and stopping a session

`server_deploy.c`, and `rc_client_start`, `rc_client_stop` and `rc_client_destroy` of
`client.c`. A function that returns an `rc_status` and is not asked for it stops with
the error. `deployTcp` connects, and falls back to `deployUsb` when another service has
the port already, or when the server it has started cannot be reached.

`connect_retry` tries until the clock is past its deadline. That it ends is part of its
definition: after a failed try it sleeps, so the clock has come nearer to the deadline.
-/

namespace RigControl.Core

open RigControl.Lib

def acceptTimeoutMs : Nat := 15000
def waitSliceMs : Nat := 100
def metaTimeoutMs : Nat := 12000
def rcDefaultTcpPort : Int := 27183

variable (env : Env)

/-- `if (r != RC_OK) { rc_emit_status(c, r, msg); return r; }`. -/
def orFail (r : RcStatus) (msg : String) : ClientM Unit := do
  if r ≠ .ok then
    rcEmitStatus r (.text msg)
    throw r

/-- A dead server is reaped, so that the teardown does not wait for it again. -/
def serverDied : ClientM Bool := do
  match (← get).serverPid with
  | none => return false
  | some pid =>
    if ← ask env.exited then
      modify fun c => { c with serverPid := none, os.procs := c.os.procs.release pid }
      return true
    else
      return false

def waitCancelled : ClientM Bool := do
  if ← abortRequested env then return true else serverDied env

/-- `accept_timeout`, by the slices of the timeout. -/
def acceptTimeout : Nat → ClientM (Option Nat)
  | 0 => return none
  | slices + 1 => do
    match ← ask env.poll with
    | .ready => rcNetAccept env
    | .error => return none
    | .timeout =>
      if ← waitCancelled env then return none else acceptTimeout slices

/-- `rc_demux_read_meta` on the video socket, into `c->meta`. -/
def readMeta : ClientM Unit := do
  match (rcDemuxReadMeta.exec (← ask env.stream)).1 with
  | .ok m => modify fun c => { c with deviceMeta := m }
  | .error r => throw r

def readMetaTimeout : Nat → ClientM Unit
  | 0 => throw .errConnect
  | slices + 1 => do
    match ← ask env.poll with
    | .ready => readMeta env
    | .error => throw .errConnect
    | .timeout =>
      if ← waitCancelled env then throw .errConnect else readMetaTimeout slices

def hexDigit (n : Nat) : Char := ("0123456789abcdef".toList)[n % 16]?.getD '0'

def RcClient.withToken (c : RcClient) (token : CString) : RcClient := { c with lanToken := token }

/-- Open `/dev/urandom`, and close it again. -/
def openRandom : ClientM Unit := do
  if ← ask env.urandom then
    let fd ← newFd .random
    closeFd fd
  else
    return ()

/-- `gen_lan_token`; the bytes are those of `/dev/urandom`, or of `rand`. -/
def genLanToken : ClientM Unit := do
  openRandom env
  let raw ← ask env.random
  modify (·.withToken ((List.ofFn raw).flatMap fun b =>
    [hexDigit (b.toNat / 16), hexDigit b.toNat]))

/-- `parse_addr`; none is `RC_ERR_INVALID_ARG`. -/
def parseAddr (addr : Option CString) : Option (CString × Int) :=
  match addr.getD [] with
  | [] => none
  | addr =>
    match splitAtColon addr with
    | some (host, port) =>
      if host.length = 0 ∨ 128 ≤ host.length then none
      else some (host, if atoi32 port ≤ 0 then rcDefaultTcpPort else atoi32 port)
    | none => if 128 ≤ addr.length then none else some (addr, rcDefaultTcpPort)

def ensureAdbDevice (serial : Option CString) : ClientM Unit := do
  match serial.filter (·.contains ':') with
  | some addr => orFail (← rcAdbConnect env addr) "adb connect thất bại (kiểm tra ip:port / adb tcpip)"
  | none => return ()

/-! ## Over the adb tunnel -/

/-- Accept a connection of the server into a field. -/
def acceptSock (k : Sock) : ClientM Bool := do
  let fd ← acceptTimeout env (acceptTimeoutMs / waitSliceMs)
  modify (·.setSock k fd)
  return fd.isSome

/-- `close` of a field that is open. -/
def closeSock (k : Sock) : ClientM Unit := do
  match (← get).sock k with
  | some fd =>
    closeFd fd
    modify (·.setSock k none)
  | none => return ()

def noVideoMsg : String := "server không kết nối video (timeout/hủy)"
def noMetaMsg : String := "không nhận được device_meta từ server (timeout/hủy)"
def runServerMsg : String := "không chạy được rc-server (app_process)"

def usbDesc (serial : Option CString) : String :=
  match serial with
  | some serial =>
    if serial.contains ':' then "LAN qua adb"
    else if ['e', 'm', 'u', 'l', 'a', 't', 'o', 'r', '-'].isPrefixOf serial then "adb (máy ảo)"
    else "USB"
  | none => "USB"

/-- A socket of the server, if the session has it. -/
def acceptOr (k : Sock) (want : Bool) (fail : ClientM Unit) : ClientM Unit := do
  if want then
    if ← acceptSock env k then return () else fail
  else
    return ()

def noVideo : ClientM Unit := do
  rcEmitStatus .errConnect (.text noVideoMsg)
  throw .errConnect

/-- The server connects in this order. -/
def acceptAll (cfg : RcConfig) : ClientM Unit := do
  acceptOr env .video true noVideo
  acceptOr env .audio cfg.audio (throw .errConnect)
  acceptOr env .control cfg.control (throw .errConnect)

def deployUsb : ClientM Unit := do
  let c ← get
  let serial := c.cfg.serial
  ensureAdbDevice env serial
  orFail (← rcAdbPush env serial) "adb push rc-server thất bại (kiểm tra RC_SERVER_PATH / thiết bị)"
  let l ← rcNetListenLoopback env
  modify (·.setSock .listen (l.map Prod.fst))
  match l with
  | none => throw .errConnect
  | some (_, port) =>
    orFail (← rcAdbReverse env serial c.socketName port) "adb reverse thất bại"
    orFail (← rcAdbRunServer env serial c.cfg (some c.socketName) 0 none) runServerMsg
    acceptAll env c.cfg
    closeSock .listen
    match ← attempt (readMetaTimeout env (metaTimeoutMs / waitSliceMs)) with
    | .error r =>
      rcEmitStatus r (.text noMetaMsg)
      throw r
    | .ok () => modify fun c => { c with transportDesc := some (usbDesc serial) }

/-! ## Teardown -/

/-- Kill the server that has not been reaped yet, and reap it. -/
def reapServer : ClientM Unit := do
  match (← get).serverPid with
  | some pid => modify fun c => { c with serverPid := none, os.procs := c.os.procs.release pid }
  | none => return ()

def rcServerTeardown : ClientM Unit := do
  closeSock .control
  closeSock .audio
  closeSock .video
  closeSock .listen
  reapServer
  let c ← get
  if c.cfg.transport = .usb then
    let _ ← rcAdbReverseRemove env c.cfg.serial c.socketName

/-! ## Over TCP -/

/-- One turn of the loop of `connect_retry`; none when it goes on. -/
def connectTry (host : CString) (port : Int) (deadline : Nat) : ClientM (Option (Option Nat)) := do
  let now ← nowMs env
  let remain := deadline - now
  let perTry := if 1000 < remain then 1000 else if remain < 100 then 100 else remain
  match ← rcNetConnectTcp env host port perTry with
  | some fd =>
    if (← get).lanToken ≠ [] then
      if ← ask env.tokenSent then
        return some (some fd)
      else
        closeFd fd
        return some none
    else
      return some (some fd)
  | none =>
    if ← waitCancelled env then
      return some none
    else
      let now ← nowMs env
      if deadline ≤ now then
        return some none
      else
        usleepMs 200
        return none

/-! ### What the waits keep -/

section

variable {I : Loose → RcClient → Prop} (hI : Neutral I) {l : Loose} {E : RcStatus → RcClient → Prop}

include hI

theorem serverDied_spec : Triple (I l) (serverDied env) (fun _ => I l) E := by
  intro c hc
  simp only [serverDied, exec_bind, exec_get]
  cases hp : c.serverPid with
  | none => exact hc
  | some pid =>
    have hcalls := hI.calls l c (c.os.calls + 1) hc
    simp only [ask, exec_bind, exec_get, exec_set, exec_pure]
    cases env.exited c.os.calls with
    | false => exact hcalls
    | true => exact hI.reap l _ pid hp hcalls

theorem waitCancelled_spec : Triple (I l) (waitCancelled env) (fun _ => I l) E :=
  (hI.abortRequested_spec env).bind fun _ =>
    .ite (fun _ => .pure fun _ hc => hc) fun _ => serverDied_spec env hI

theorem acceptTimeout_spec (slices : Nat) :
    Triple (I l) (acceptTimeout env slices) (fun r => I (looseOf .accepted r ++ l)) E := by
  induction slices with
  | zero => exact .pure fun _ hc => hc
  | succ slices ih =>
    refine hI.ask_bind fun n => ?_
    cases env.poll n with
    | ready => exact hI.rcNetAccept_spec env
    | error => exact .pure fun _ hc => hc
    | timeout =>
      exact (waitCancelled_spec env hI).bind fun _ => .ite (fun _ => .pure fun _ hc => hc) fun _ => ih

theorem orFail_spec (r : RcStatus) (msg : String) :
    Triple (I l) (orFail r msg) (fun _ => I l) (fun w c => w ≠ .ok ∧ I l c) :=
  .ite (fun hr => (hI.rcEmitStatus_spec r _).bind fun _ => .throw fun _ hc => ⟨hr, hc⟩)
    fun _ => .pure fun _ hc => hc

theorem ensureAdbDevice_spec (serial : Option CString) :
    Triple (I l) (ensureAdbDevice env serial) (fun _ => I l) (fun w c => w ≠ .ok ∧ I l c) := by
  unfold ensureAdbDevice
  split
  · exact (hI.rcAdbConnect_spec env _).bind fun _ => orFail_spec hI _ _
  · exact .pure fun _ hc => hc

/-- When the loop goes on, the client has slept, and before that the deadline was not
past. -/
theorem connectTry_spec (host : CString) (port : Int) (deadline : Nat) :
    Triple (I l) (connectTry env host port deadline) (fun r c => match r with
      | some r => I (looseOf .tcp r ++ l) c
      | none => ∃ c0, I l c0 ∧ c0.os.now < deadline ∧
          c = { c0 with os.now := c0.os.now + 200 }) E := by
  refine (hI.nowMs_spec env).bind fun now => .pre ?_ fun _ hc => hc.2
  refine (hI.rcNetConnectTcp_spec env host port _).bind fun r => ?_
  cases r with
  | some fd =>
    refine .get_bind fun _ _ => .ite (fun _ => hI.ask_bind fun _ => .ite (fun _ => ?_) fun _ => ?_)
      fun _ => .pure fun _ hc => hc
    · exact .pure fun _ hc => hc
    · exact (hI.closeFd_spec fd .tcp).bind fun _ => .pure fun _ hc => hc
  | none =>
    refine (waitCancelled_spec env hI).bind fun _ => .ite (fun _ => .pure fun _ hc => hc) fun _ => ?_
    refine (hI.nowMs_spec env).bind fun now => .ite (fun _ => .pure fun _ hc => hc.2) fun hlt => ?_
    refine .bind (Q := fun _ c => ∃ c0, I l c0 ∧ c0.os.now < deadline ∧
      c = { c0 with os.now := c0.os.now + 200 }) (.modify fun c hc => ⟨c, hc.2, ?_, rfl⟩)
      fun _ => .pure fun _ hc => hc
    rw [hc.1]
    exact Nat.lt_of_not_le hlt

end

/-- It is `t` or later; the clock does not go back. -/
def Late (t : Nat) (_ : Loose) (c : RcClient) : Prop := t ≤ c.os.now

theorem late_neutral (t : Nat) : Neutral (Late t) where
  calls _ _ _ h := h
  clock _ _ d h := Nat.le_trans h (Nat.le_add_right _ d)
  emit _ _ _ h := h
  abort _ _ _ h := h
  received _ _ _ h := h
  acquire _ _ _ h := h
  release _ _ _ _ h := h
  reap _ _ _ _ h := h

theorem connectTry_nearer (host : CString) (port : Int) (deadline : Nat) (c c' : RcClient)
    (h : (connectTry env host port deadline).exec c = (.ok none, c')) :
    deadline + 200 - c'.os.now < deadline + 200 - c.os.now := by
  have hspec := connectTry_spec (E := fun _ _ => True) env (late_neutral c.os.now) (l := []) host
    port deadline
  obtain ⟨c0, hlate, hlt, rfl⟩ := hspec.exec_ok (Nat.le_refl c.os.now) h
  have hle : c.os.now ≤ c0.os.now := hlate
  show deadline + 200 - (c0.os.now + 200) < deadline + 200 - c.os.now
  omega

/-- Something listens on the port before the server is started. -/
def portTaken (cfg : RcConfig) (host : CString) (port : Int) : ClientM Bool := do
  if cfg.tcpDevicePort ≤ 0 then
    match ← rcNetConnectTcp env host port 800 with
    | some probe =>
      closeFd probe
      return true
    | none => return false
  else
    return false

/-- `connect_retry`: at least one try, and tries until `budgetMs` are over. -/
def connectRetry (host : CString) (port : Int) (budgetMs : Nat) : ClientM (Option Nat) := do
  let t0 ← nowMs env
  let deadline := t0 + budgetMs
  loop (connectTry env host port deadline) (fun c => deadline + 200 - c.os.now)
    (connectTry_nearer env host port deadline)

/-- The `device_meta` is one that was read. -/
def RcClient.HasMeta (c : RcClient) : Prop :=
  ∃ src : Stream, (rcDemuxReadMeta.exec src).1 = .ok c.deviceMeta

section

variable {I : Loose → RcClient → Prop} (hI : Neutral I) {l : Loose} {E : RcStatus → RcClient → Prop}

include hI

theorem connectRetry_spec (host : CString) (port : Int) (budgetMs : Nat) :
    Triple (I l) (connectRetry env host port budgetMs) (fun r => I (looseOf .tcp r ++ l)) E := by
  refine (hI.nowMs_spec env).bind fun t0 => .pre ?_ fun _ hc => hc.2
  refine .loop ((connectTry_spec env hI host port (t0 + budgetMs)).post fun r c hc => ?_)
  cases r with
  | some fd => exact hc
  | none =>
    obtain ⟨c0, hc0, -, rfl⟩ := hc
    exact hI.clock l c0 200 hc0

theorem readMeta_spec : Triple (I l) (readMeta env)
    (fun _ c => c.HasMeta ∧ I l c)
    (fun w c => w ≠ .ok ∧ I l c) := by
  refine hI.ask_bind fun n => ?_
  cases hread : (rcDemuxReadMeta.exec (env.stream n)).1 with
  | ok m => exact .modify fun c hc => ⟨⟨env.stream n, hread⟩, hI.received l c m hc⟩
  | error r => exact .throw fun c hc => ⟨rcDemuxReadMeta_stops _ _ _ (Prod.ext hread rfl), hc⟩

theorem readMetaTimeout_spec (slices : Nat) : Triple (I l) (readMetaTimeout env slices)
    (fun _ c => c.HasMeta ∧ I l c)
    (fun w c => w ≠ .ok ∧ I l c) := by
  induction slices with
  | zero => exact .throw fun _ hc => ⟨by decide, hc⟩
  | succ slices ih =>
    refine hI.ask_bind fun n => ?_
    cases env.poll n with
    | ready => exact readMeta_spec env hI
    | error => exact .throw fun _ hc => ⟨by decide, hc⟩
    | timeout =>
      exact (waitCancelled_spec env hI).bind fun _ =>
        .ite (fun _ => .throw fun _ hc => ⟨by decide, hc⟩) fun _ => ih

theorem portTaken_spec (cfg : RcConfig) (host : CString) (port : Int) :
    Triple (I l) (portTaken env cfg host port) (fun _ => I l) E := by
  refine .ite (fun _ => (hI.rcNetConnectTcp_spec env host port 800).bind fun r => ?_)
    fun _ => .pure fun _ hc => hc
  cases r with
  | some probe => exact (hI.closeFd_spec probe .tcp).bind fun _ => .pure fun _ hc => hc
  | none => exact .pure fun _ hc => hc

end

/-- Connect into a field. -/
def connectSock (k : Sock) (host : CString) (port : Int) (budgetMs : Nat) : ClientM Bool := do
  let fd ← connectRetry env host port budgetMs
  modify (·.setSock k fd)
  return fd.isSome

/-- Connect into a field, if the session has it. -/
def connectOr (k : Sock) (want : Bool) (host : CString) (port : Int) : ClientM Bool := do
  if want then connectSock env k host port 1000 else return true

/-- The connections of the session and its `device_meta`; the step that failed. -/
def openStreams (cfg : RcConfig) (host : CString) (port : Int) (deployed : Bool) :
    ClientM (Option String) := do
  if ← connectSock env .video host port (if deployed then 3000 else 1000) then
    if ← connectOr env .audio cfg.audio host port then
      if ← connectOr env .control cfg.control host port then
        match ← attempt (readMetaTimeout env (metaTimeoutMs / waitSliceMs)) with
        | .ok () => return none
        | .error _ => return some "đọc device_meta"
      else return some "connect control"
    else return some "connect audio"
  else return some "connect video"

def fallbackMsg (fail : String) : String :=
  s!"LAN trực tiếp không thông ở bước \"{fail}\" (NAT/firewall/relay chết?) — chuyển qua adb tunnel"

def noTcpMsg (fail : String) : String := s!"kết nối TCP thất bại ở bước \"{fail}\""

def RcClient.toUsb (c : RcClient) : RcClient := { c with cfg.transport := .usb }

/-- `deployed && !atomic_load(&c->abort_requested)`. -/
def mayFallBack (deployed : Bool) : ClientM Bool := do
  if deployed then return !(← abortRequested env) else return false

/-- The second half of `deploy_tcp`: connect, or go over to the tunnel. -/
def connectAll (cfg : RcConfig) (host : CString) (port : Int) (deployed : Bool) : ClientM Unit := do
  match ← openStreams env cfg host port deployed with
  | none => modify fun c => { c with transportDesc := some "LAN trực tiếp" }
  | some fail =>
    if ← mayFallBack env deployed then
      rcEmitStatus .ok (.text (fallbackMsg fail))
      rcServerTeardown env
      modify fun c => (c.withToken []).toUsb
      deployUsb env
    else
      rcEmitStatus .errConnect (.text (noTcpMsg fail))
      throw .errConnect

def startServer (cfg : RcConfig) (port : Int) : ClientM Unit := do
  ensureAdbDevice env cfg.serial
  orFail (← rcAdbPush env cfg.serial) "adb push rc-server thất bại (kiểm tra RC_SERVER_PATH)"
  genLanToken env
  let devPort := if 0 < cfg.tcpDevicePort then cfg.tcpDevicePort else port
  let token := (← get).lanToken
  orFail (← rcAdbRunServer env cfg.serial cfg none devPort (some token)) runServerMsg

def deployTcp : ClientM Unit := do
  let c ← get
  match parseAddr c.cfg.tcpAddr with
  | none =>
    rcEmitStatus .errInvalidArg (.text "tcp_addr không hợp lệ (cần \"ip[:port]\")")
    throw .errInvalidArg
  | some (host, port) =>
    if c.cfg.serial.getD [] ≠ [] then
      if ← portTaken env c.cfg host port then
        rcEmitStatus .ok (.text "cổng LAN đã bị dịch vụ khác chiếm — chuyển qua adb tunnel")
        modify (·.toUsb)
        deployUsb env
      else
        startServer env c.cfg port
        connectAll env c.cfg host port true
    else
      connectAll env c.cfg host port false

def rcServerDeploy : ClientM Unit := do
  if (← get).cfg.transport = .tcp then deployTcp env else deployUsb env

/-! ## The session -/

def codecFromMeta (codecId : UInt32) : Option RcCodec :=
  if codecId = rcCodecIdH264 then some .h264
  else if codecId = rcCodecIdH265 then some .h265
  else if codecId = rcCodecIdAv1 then some .av1
  else none

def decoderDescOf (hw : Option String) : String :=
  match hw with
  | none => "CPU (software)"
  | some hw =>
    if hw = "cuda" then "GPU NVIDIA (NVDEC)"
    else if hw = "vaapi" then "GPU Intel/AMD (VAAPI)"
    else if hw = "videotoolbox" then "GPU Apple (VideoToolbox)"
    else "GPU (hw)"

/-- Report, take down what there is, and stop. -/
def giveUp (code : RcStatus) (msg : String) : ClientM Unit := do
  rcEmitStatus code (.text msg)
  rcServerTeardown env
  throw code

/-- The threads of `rc_client_start`; the audio thread is optional. -/
def startThreads : ClientM Unit := do
  modify fun c => { c with running := true }
  if ← ask env.thread then
    modify fun c => { c with netThread := true }
    let c ← get
    if c.cfg.audio && c.audioFd.isSome then
      if ← ask env.thread then
        modify fun c => { c with audioThread := true }
  else
    modify fun c => { c with running := false, decoder := false }
    rcServerTeardown env
    throw .errGeneric

def rcClientStart : ClientM Unit := do
  if (← get).running then
    return ()
  else
    match ← attempt (rcServerDeploy env) with
    | .error r =>
      rcServerTeardown env
      throw r
    | .ok () =>
      let c ← get
      if c.deviceMeta.version ≠ rcProtoVersion then
        giveUp env .errProtocol "phiên bản protocol của server không khớp"
      else
        match codecFromMeta c.deviceMeta.codecId with
        | none => giveUp env .errProtocol "codec trong device_meta không nhận diện được"
        | some codec =>
          modify fun c => { c with cfg.codec := codec, haveMeta := true }
          rcEmitStatus .ok (.name c.deviceMeta.deviceName)
          match ← ask (env.decoder codec) with
          | none => giveUp env .errDecode "khởi tạo decoder thất bại"
          | some hw =>
            modify fun c => { c with decoder := true, decoderDesc := some (decoderDescOf hw) }
            rcEmitStatus .ok (.text ("decoder: " ++ decoderDescOf hw))
            startThreads env

/-- When the net thread ends, it may have left no decoder. -/
def joinNetThread : ClientM Unit := do
  if (← get).netThread then
    let left ← ask env.decoderLeft
    modify fun c => { c with
      netThread := false
      decoder := c.decoder && left
      decoderDesc := if left then c.decoderDesc else none }
  else
    return ()

def joinAudioThread : ClientM Unit := do
  if (← get).audioThread then
    let left ← ask env.playerLeft
    modify fun c => { c with audioThread := false, audioPlayer := c.audioPlayer || left }
  else
    return ()

/-- `rc_client_stop`. The threads end because their sockets are shut down; a socket that
is shut down is closed by the teardown. -/
def rcClientStop : ClientM Unit := do
  modify fun c => { c with abortRequested := true, running := false }
  joinNetThread env
  joinAudioThread env
  modify fun c => { c with
    decoder := false
    decoderDesc := if c.decoder then none else c.decoderDesc
    audioPlayer := false }
  rcServerTeardown env

/-- What is left of the system when the client has been freed. -/
def rcClientDestroy (c : RcClient) : Os := ((rcClientStop env).exec c).2.os

end RigControl.Core
