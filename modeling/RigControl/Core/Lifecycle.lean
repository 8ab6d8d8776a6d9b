import RigControl.Core.Deployed

/-!
# The life of a client

`rc_client_start` makes a session or leaves nothing; `rc_client_stop` takes down
whatever there is, however often it is called. `start_stop_destroy` says so of every
config and every outcome of every call.
-/

namespace RigControl.Core

open RigControl.Lib

variable {l : Loose} {c c' : RcClient} (env : Env)

/-! ## A session -/

/-- A client that is connected as `cfg` says. -/
structure Connected (cfg : RcConfig) (c : RcClient) : Prop where
  sound : Sound [] c
  video : c.videoFd.isSome = true
  audio : c.audioFd.isSome = cfg.audio
  control : c.controlFd.isSome = cfg.control
  listen : c.listenFd = none
  hasMeta : c.HasMeta
  token : c.cfg.transport = .usb → c.lanToken = []

theorem Deployed.connected {cfg : RcConfig} (h : Deployed cfg c) : Connected cfg c ∧ c.Idle := by
  obtain ⟨hmeta, v, hlinked, hstill, hsound⟩ := h
  have hv : c.still = v := hstill
  subst hv
  exact ⟨⟨hsound, hlinked.video, hlinked.audio, hlinked.control, hlinked.listen, hmeta,
    hlinked.token⟩, hlinked.idle.1, hlinked.idle.2, hlinked.idle.3, hlinked.idle.4, hlinked.idle.5⟩

/-- The `device_meta` is one that the client knows what to do with. -/
structure MetaValid (c : RcClient) : Prop where
  version : c.deviceMeta.version = rcProtoVersion
  codec : codecFromMeta c.deviceMeta.codecId = some c.cfg.codec

/-- A client whose start has worked. -/
structure Session (cfg : RcConfig) (c : RcClient) : Prop where
  connected : Connected cfg c
  metaValid : MetaValid c
  running : c.running = true
  netThread : c.netThread = true
  decoder : c.decoder = true

/-- A client that holds nothing and does nothing. -/
structure Stopped (c : RcClient) : Prop where
  down : Down env c
  idle : c.Idle

/-- The teardown of an idle client stops it. -/
theorem teardown_stopped {E : RcStatus → RcClient → Prop} :
    Triple (fun c => c.Idle ∧ Sound [] c) (rcServerTeardown env) (fun _ => Stopped env) E := by
  rintro c ⟨hidle, hsound⟩
  refine ((rcServerTeardown_spec env c.still).post fun _ c' ⟨hstill, hdown⟩ => ⟨hdown, ?_⟩) c
    ⟨rfl, hsound⟩
  have hback : ∀ d : RcClient, d.still.Idle → d.Idle := fun d h => ⟨h.1, h.2, h.3, h.4, h.5⟩
  refine hback c' ?_
  rw [hstill]
  exact ⟨hidle.1, hidle.2, hidle.3, hidle.4, hidle.5⟩

theorem giveUp_spec {code : RcStatus} (hcode : code ≠ .ok) (msg : String) {P : RcClient → Prop}
    (hP : ∀ c, P c → c.Idle ∧ Sound [] c) {Q : Unit → RcClient → Prop} :
    Triple P (giveUp env code msg) Q (fun w c => w ≠ .ok ∧ Stopped env c) := by
  refine .pre ?_ hP
  refine (emit_spec (fun c e hc => ?_) _ _).bind fun _ => (teardown_stopped env).bind fun _ =>
    .throw fun c hc => ⟨hcode, hc⟩
  exact ⟨⟨hc.1.1, hc.1.2, hc.1.3, hc.1.4, hc.1.5⟩, sound_neutral.emit [] c e hc.2⟩

theorem Connected.of_eq {cfg : RcConfig} (h : Connected cfg c) (heq : c'.holdings = c.holdings)
    (hmeta : c'.deviceMeta = c.deviceMeta) (htoken : c'.lanToken = c.lanToken) :
    Connected cfg c' := by
  have hsound := h.sound.of_eq heq
  simp only [RcClient.holdings, Prod.mk.injEq] at heq
  obtain ⟨hsock, -, htransport, -⟩ := heq
  exact {
    sound := hsound
    video := (congrArg Option.isSome (congrFun hsock .video)).trans h.video
    audio := (congrArg Option.isSome (congrFun hsock .audio)).trans h.audio
    control := (congrArg Option.isSome (congrFun hsock .control)).trans h.control
    listen := (congrFun hsock .listen).trans h.listen
    hasMeta := by
      rw [RcClient.HasMeta, hmeta]
      exact h.hasMeta
    token := fun husb => htoken.trans (h.token (htransport ▸ husb)) }

theorem MetaValid.of_eq (h : MetaValid c) (hmeta : c'.deviceMeta = c.deviceMeta)
    (hcodec : c'.cfg.codec = c.cfg.codec) : MetaValid c' :=
  ⟨hmeta ▸ h.version, hmeta ▸ hcodec ▸ h.codec⟩

/-- A client that has its `device_meta`, before the threads are started. -/
structure Ready (cfg : RcConfig) (c : RcClient) : Prop where
  connected : Connected cfg c
  metaValid : MetaValid c
  netThread : c.netThread = false
  audioThread : c.audioThread = false
  audioPlayer : c.audioPlayer = false

theorem Ready.calls {cfg : RcConfig} (h : Ready cfg c) (n : Nat) :
    Ready cfg { c with os.calls := n } :=
  { h with connected := h.connected.of_eq rfl rfl rfl, metaValid := h.metaValid.of_eq rfl rfl }

theorem Ready.emit {cfg : RcConfig} (h : Ready cfg c) (e : List (RcStatus × StatusMsg)) :
    Ready cfg { c with emitted := e } :=
  { h with connected := h.connected.of_eq rfl rfl rfl, metaValid := h.metaValid.of_eq rfl rfl }

theorem Session.calls {cfg : RcConfig} (h : Session cfg c) (n : Nat) :
    Session cfg { c with os.calls := n } :=
  { h with connected := h.connected.of_eq rfl rfl rfl, metaValid := h.metaValid.of_eq rfl rfl }

theorem startThreads_spec (cfg : RcConfig) :
    Triple (fun c => Ready cfg c ∧ c.decoder = true) (startThreads env) (fun _ => Session cfg)
      (fun w c => w ≠ .ok ∧ Stopped env c) := by
  refine .bind (Q := fun _ c => Ready cfg c ∧ c.decoder = true ∧ c.running = true)
    (.modify fun c hc => ⟨?_, hc.2, rfl⟩) fun _ => ?_
  · exact { hc.1 with
      connected := hc.1.connected.of_eq rfl rfl rfl
      metaValid := hc.1.metaValid.of_eq rfl rfl }
  refine ask_spec (fun c n hc => ⟨hc.1.calls n, hc.2⟩) fun n => .ite (fun _ => ?_) fun _ => ?_
  · refine .bind (Q := fun _ => Session cfg) (.modify fun c hc => ?_) fun _ => ?_
    · exact ⟨hc.1.connected.of_eq rfl rfl rfl,
        hc.1.metaValid.of_eq rfl rfl, hc.2.2, rfl, hc.2.1⟩
    -- without its thread the audio is silent, and the session goes on
    refine .get_bind fun _ _ => .ite (fun _ => ?_) fun _ => .pure fun _ hc => hc
    refine ask_spec (fun c n hc => hc.calls n) fun n => .ite (fun _ => .modify fun c hc => ?_) fun _ =>
      .pure fun _ hc => hc
    exact { hc with
      connected := hc.connected.of_eq rfl rfl rfl
      metaValid := hc.metaValid.of_eq rfl rfl }
  · refine .bind (Q := fun _ c => c.Idle ∧ Sound [] c) (.modify fun c hc => ⟨?_, ?_⟩) fun _ => ?_
    · exact ⟨rfl, hc.1.netThread, hc.1.audioThread, rfl, hc.1.audioPlayer⟩
    · exact hc.1.connected.sound.of_eq rfl
    · exact (teardown_stopped env).bind fun _ => .throw fun c hc => ⟨by decide, hc⟩

theorem rcClientStart_spec (cfg : RcConfig) (socketName : CString) :
    Triple (· = rcClientCreate cfg socketName) (rcClientStart env) (fun _ => Session cfg)
      (fun w c => w ≠ .ok ∧ Stopped env c) := by
  have hfree : ∀ k, (rcClientCreate cfg socketName).sock k = none := by
    intro k
    cases k <;> rfl
  have hidle : (rcClientCreate cfg socketName).Idle := ⟨rfl, rfl, rfl, rfl, rfl⟩
  have hquiet : Quiet (rcClientCreate cfg socketName) [] (rcClientCreate cfg socketName) :=
    ⟨rfl, rfl, .nothing Ledger.holds_empty Ledger.holds_empty rfl hfree rfl⟩
  refine .get_bind_eq fun c hc => ?_
  subst hc
  refine .pre ?_ (P := Quiet (rcClientCreate cfg socketName) []) fun c hc => hc ▸ hquiet
  refine (rcServerDeploy_spec env hidle rfl hfree).attempt.bind fun r => ?_
  cases r with
  | error r =>
    refine .of_and fun hr => .pre ?_ (P := fun c => c.Idle ∧ Sound [] c) ?_
    · exact (teardown_stopped env).bind fun _ => .throw fun c hc => ⟨hr, hc⟩
    · rintro c ⟨v, hv, hstill, hsound⟩
      have hcv : c.still = v := hstill
      subst hcv
      exact ⟨⟨hv.1, hv.2, hv.3, hv.4, hv.5⟩, hsound⟩
  | ok u =>
    refine .get_bind_eq fun c hc => ?_
    obtain ⟨hconnected, hidle⟩ := Deployed.connected hc
    have hstop : ∀ d, d = c → d.Idle ∧ Sound [] d := fun d hd => hd ▸ ⟨hidle, hconnected.sound⟩
    refine .ite (fun _ => giveUp_spec env (by decide) _ hstop) fun hversion => ?_
    cases hcodec : codecFromMeta c.deviceMeta.codecId with
    | none => exact giveUp_spec env (by decide) _ hstop
    | some codec =>
      refine .bind (Q := fun _ d => Ready cfg d ∧ d.running = false ∧ d.decoder = false) ?_ fun _ => ?_
      · refine .modify fun d hd => ?_
        subst hd
        exact ⟨⟨hconnected.of_eq rfl rfl rfl,
          ⟨not_not.mp hversion, hcodec⟩, hidle.netThread, hidle.audioThread, hidle.audioPlayer⟩,
          hidle.running, hidle.decoder⟩
      refine (emit_spec (fun d e hd => ⟨hd.1.emit e, hd.2⟩) _ _).bind fun _ => ?_
      refine ask_spec (fun d n hd => ⟨hd.1.calls n, hd.2⟩) fun n => ?_
      cases env.decoder codec n with
      | none =>
        exact giveUp_spec env (by decide) _ fun d hd => ⟨⟨hd.2.1, hd.1.netThread, hd.1.audioThread,
          hd.2.2, hd.1.audioPlayer⟩, hd.1.connected.sound⟩
      | some hw =>
        refine .bind (Q := fun _ d => Ready cfg d ∧ d.decoder = true) (.modify fun d hd => ⟨?_, rfl⟩)
          fun _ => (emit_spec (fun d e hd => ⟨hd.1.emit e, hd.2⟩) _ _).bind fun _ =>
            startThreads_spec env cfg
        exact { hd.1 with
          connected := hd.1.connected.of_eq rfl rfl rfl
          metaValid := hd.1.metaValid.of_eq rfl rfl }

/-! ## Stopping -/

theorem joinNetThread_spec {E : RcStatus → RcClient → Prop} :
    Triple (fun c => c.running = false ∧ Sound [] c) (joinNetThread env)
      (fun _ c => c.running = false ∧ c.netThread = false ∧ Sound [] c) E := by
  refine .get_bind_eq fun c hc => .ite (fun _ => ?_) fun hnone => .pure fun d hd => ?_
  · refine .pre ?_ (P := fun c => c.running = false ∧ Sound [] c) fun d hd => hd ▸ hc
    refine ask_spec (fun d n hd => ⟨hd.1, sound_neutral.calls [] d n hd.2⟩) fun n => .modify fun d hd => ?_
    exact ⟨hd.1, rfl, hd.2.of_eq rfl⟩
  · subst hd
    exact ⟨hc.1, Bool.not_eq_true _ ▸ hnone, hc.2⟩

theorem joinAudioThread_spec {E : RcStatus → RcClient → Prop} :
    Triple (fun c => c.running = false ∧ c.netThread = false ∧ Sound [] c) (joinAudioThread env)
      (fun _ c => c.running = false ∧ c.netThread = false ∧ c.audioThread = false ∧ Sound [] c) E := by
  refine .get_bind_eq fun c hc => .ite (fun _ => ?_) fun hnone => .pure fun d hd => ?_
  · refine .pre ?_ (P := fun c => c.running = false ∧ c.netThread = false ∧ Sound [] c)
      fun d hd => hd ▸ hc
    refine ask_spec (fun d n hd => ⟨hd.1, hd.2.1, sound_neutral.calls [] d n hd.2.2⟩) fun n =>
      .modify fun d hd => ?_
    exact ⟨hd.1, hd.2.1, rfl, hd.2.2.of_eq rfl⟩
  · subst hd
    exact ⟨hc.1, hc.2.1, Bool.not_eq_true _ ▸ hnone, hc.2.2⟩

/-- A stop takes down whatever there is. -/
theorem rcClientStop_spec {E : RcStatus → RcClient → Prop} :
    Triple (Sound []) (rcClientStop env) (fun _ => Stopped env) E := by
  refine .bind (Q := fun _ c => c.running = false ∧ Sound [] c) (.modify fun c hc =>
    ⟨rfl, hc.of_eq rfl⟩) fun _ => ?_
  refine (joinNetThread_spec env).bind fun _ => (joinAudioThread_spec env).bind fun _ => ?_
  refine .bind (Q := fun _ c => c.Idle ∧ Sound [] c) (.modify fun c hc => ⟨?_, ?_⟩) fun _ =>
    teardown_stopped env
  · exact ⟨hc.1, hc.2.1, hc.2.2.1, rfl, rfl⟩
  · exact hc.2.2.2.of_eq rfl

/-- `n` calls of `rc_client_stop`. -/
def stops : Nat → RcClient → RcClient
  | 0, c => c
  | n + 1, c => stops n ((rcClientStop env).exec c).2

theorem stop_stopped (h : Sound [] c) : Stopped env ((rcClientStop env).exec c).2 := by
  have hend := rcClientStop_spec (E := fun _ => Stopped env) env c h
  rcases hr : (rcClientStop env).exec c with ⟨w | u, c'⟩ <;> rw [hr] at hend <;> exact hend

theorem stops_sound (h : Sound [] c) (n : Nat) : Sound [] (stops env n c) := by
  induction n generalizing c with
  | zero => exact h
  | succ n ih => exact ih (stop_stopped env h).down.sound

/-! ## The life of a client -/

/-- What a start that returns `RC_OK` has got: the connections of `cfg`, a whole and
valid `device_meta`, and nothing else. Over the tunnel, also when TCP was given up,
every descriptor, the server and the token are those of the tunnel. -/
structure Started (cfg : RcConfig) (c : RcClient) : Prop where
  video : c.videoFd.isSome = true
  audio : c.audioFd.isSome = cfg.audio
  control : c.controlFd.isSome = cfg.control
  listen : c.listenFd = none
  whole : ∃ src : Stream, 4 + 2 + 4 + 2 + 2 + rcDeviceNameLen ≤ src.bytes.length ∧
    (rcDemuxReadMeta.exec src).1 = .ok c.deviceMeta
  magic : c.deviceMeta.magic = rcMetaMagic
  version : c.deviceMeta.version = rcProtoVersion
  codec : codecFromMeta c.deviceMeta.codecId = some c.cfg.codec
  fds : ∀ fd, c.os.fds.Live fd ↔ ∃ k, c.sock k = some fd
  links : ∀ k fd, c.sock k = some fd → c.os.fds.made[fd]? = some (c.cfg.linkOf k)
  procs : ∀ pid, c.os.procs.Live pid ↔ c.serverPid = some pid
  server : ∀ pid, c.serverPid = some pid →
    ∃ args, c.os.procs.made[pid]? = some args ∧ (args.tcp = true ↔ c.cfg.transport = .tcp)
  token : c.cfg.transport = .usb → c.lanToken = []

/-- What a start that fails leaves. -/
structure Closed (c : RcClient) : Prop where
  socks : ∀ k, c.sock k = none
  serverPid : c.serverPid = none
  idle : c.Idle

/-- Every descriptor was closed once, every server reaped once, and no reverse is left. -/
structure Released (os : Os) : Prop where
  fds : os.fds.Settled
  procs : os.procs.Settled
  reverses : env.RemoveWorks → os.reverses = []

theorem mem_held (fd : Nat) : fd ∈ c.held ↔ ∃ k, c.sock k = some fd := by
  simp only [RcClient.held, List.mem_append, Option.mem_toList]
  constructor
  · rintro (((h | h) | h) | h)
    · exact ⟨.control, h⟩
    · exact ⟨.audio, h⟩
    · exact ⟨.video, h⟩
    · exact ⟨.listen, h⟩
  · rintro ⟨k, h⟩
    cases k <;> simp only [h, true_or, or_true]

theorem Session.started {cfg : RcConfig} (h : Session cfg c) : Started cfg c := by
  obtain ⟨src, hread⟩ := h.connected.hasMeta
  obtain ⟨hwhole, hmagic⟩ := rcDemuxReadMeta_ok hread
  have hsound := h.connected.sound
  have hfds : c.os.fds.Holds c.held := by simpa using hsound.fds
  exact {
    video := h.connected.video
    audio := h.connected.audio
    control := h.connected.control
    listen := h.connected.listen
    whole := ⟨src, hwhole, hread⟩
    magic := hmagic
    version := h.metaValid.version
    codec := h.metaValid.codec
    fds := fun fd => (hfds.live_iff fd).trans (mem_held fd)
    links := hsound.links
    procs := fun pid => (hsound.procs.live_iff pid).trans Option.mem_toList
    server := hsound.server
    token := h.connected.token }

theorem Down.released (h : Down env c) : Released env c.os :=
  ⟨(h.sound.fds_nil h.socks).settled, (h.sound.procs_nil h.serverPid).settled, h.reverses⟩

/-- **The life of a client.** A start connects all that the config asks for, or leaves
nothing open; and whichever it does, after any number of stops and the destroy
everything has been given back exactly once. -/
theorem start_stop_destroy (cfg : RcConfig) (socketName : CString) :
    (((rcClientStart env).exec (rcClientCreate cfg socketName)).1 = .ok () ∧
        Started cfg ((rcClientStart env).exec (rcClientCreate cfg socketName)).2 ∨
      (∃ w, w ≠ .ok ∧
        ((rcClientStart env).exec (rcClientCreate cfg socketName)).1 = .error w) ∧
        Closed ((rcClientStart env).exec (rcClientCreate cfg socketName)).2) ∧
    ∀ n, Released env (rcClientDestroy env
      (stops env n ((rcClientStart env).exec (rcClientCreate cfg socketName)).2)) := by
  have hdestroy : ∀ c : RcClient, Sound [] c → ∀ n, Released env (rcClientDestroy env (stops env n c)) :=
    fun c hc n => (stop_stopped env (stops_sound env hc n)).down.released
  have hstart := rcClientStart_spec env cfg socketName _ rfl
  rcases hr : (rcClientStart env).exec (rcClientCreate cfg socketName) with ⟨w | u, c⟩ <;>
    rw [hr] at hstart
  · obtain ⟨hw, hdown, hidle⟩ := hstart
    exact ⟨.inr ⟨⟨w, hw, rfl⟩, hdown.socks, hdown.serverPid, hidle⟩, hdestroy c hdown.sound⟩
  · have hsession : Session cfg c := hstart
    exact ⟨.inl ⟨rfl, hsession.started⟩, hdestroy c hsession.connected.sound⟩

/-- Everything works but the LAN: no connect comes through. -/
def deafEnv : Env where
  serverPath := []
  abort _ := false
  adb _ _ := true
  spawn _ _ := true
  exited _ := false
  poll _ := .ready
  listen _ := .port 40000
  accept _ := true
  connect _ _ _ _ := [.failed]
  tokenSent _ := true
  stream _ := [.data ([0x52, 0x43, 0x4E, 0x31, 0, 1, 0x68, 0x32, 0x36, 0x34, 4, 0x38, 9, 0x60] ++
    List.replicate 64 0x41)]
  lapse _ := 100
  urandom _ := true
  random _ _ := 0x5a
  decoder _ _ := some none
  thread _ := true
  decoderLeft _ := true
  playerLeft _ := true

def lanConfig : RcConfig :=
  { serial := some ['A']
    transport := .tcp
    tcpAddr := some ['1', ':', '5']
    tcpDevicePort := 0
    maxSize := 0
    bitRate := 0
    maxFps := 0
    codec := .h264
    control := true
    audio := true }

/-- The session goes over to the tunnel, and its reverse is removed at the end. -/
theorem start_stop_destroy_deaf :
    ((rcClientStart deafEnv).exec (rcClientCreate lanConfig ['s'])).1 = .ok () ∧
      ((rcClientStart deafEnv).exec (rcClientCreate lanConfig ['s'])).2.cfg.transport = .usb ∧
      (rcClientDestroy deafEnv
        (stops deafEnv 2 ((rcClientStart deafEnv).exec (rcClientCreate lanConfig ['s'])).2)).reverses = [] :=
  ⟨by decide +kernel, by decide +kernel,
    ((start_stop_destroy deafEnv lanConfig ['s']).2 2).reverses fun _ _ _ => rfl⟩

end RigControl.Core
