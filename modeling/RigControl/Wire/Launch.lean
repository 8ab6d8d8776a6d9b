import RigControl.Core.Lifecycle
import RigControl.Core.ServerArgv
import RigControl.Server.Options

/-!
# The parameters on their way to the server

What `rc_adb_run_server` spells, `Options.parse` reads: with every configuration the
server gets the client's parameters, so it opens the channels that the client waits for,
and it announces the codec that the client asked for.
-/

namespace RigControl.Wire

open RigControl.Lib RigControl.Core RigControl.Server

/-- The options that stand for the client's parameters. -/
def launched (a : ServerArgs) : ServerOptions :=
  { ServerOptions.default with
    socketName := a.socketName
    maxSize := a.maxSize
    bitRate := a.bitRate
    maxFps := a.maxFps
    codec := codecName a.codec
    audio := a.audio
    control := a.control
    tcp := a.tcp
    port := a.port.getD Protocol.defaultTcpPort
    token := a.token }

/-- The channels a client of this configuration waits for. -/
def clientChannels (cfg : RcConfig) : List Channel :=
  .video :: (if cfg.audio then [.audio] else []) ++ (if cfg.control then [.control] else [])

/-- The channels of a client's sockets, in the order in which they are connected. -/
def connectedChannels (c : RcClient) : List Channel :=
  (if c.videoFd.isSome then [.video] else []) ++ (if c.audioFd.isSome then [.audio] else []) ++
    (if c.controlFd.isSome then [.control] else [])

/-- A start that works has connected the channels of its configuration. -/
theorem started_channels (env : Env) {cfg : RcConfig} {socketName : CString} {c : RcClient}
    (h : (rcClientStart env).exec (rcClientCreate cfg socketName) = (.ok (), c)) :
    connectedChannels c = clientChannels cfg := by
  have hsession : Session cfg c := (rcClientStart_spec env cfg socketName).exec_ok rfl h
  obtain ⟨-, hvideo, haudio, hcontrol, -, -, -⟩ := hsession.connected
  rw [connectedChannels, hvideo, haudio, hcontrol, clientChannels, if_pos rfl]
  rfl

/-! ## Each argument -/

theorem parseBoolean_flagName (b : Bool) : parseBoolean (flagName b) = b := by
  cases b <;> decide

/-- A key with a text, a flag or a number. -/
theorem arg_text {key k : CString} (hkey : key = k ++ ['=']) (h : '=' ∉ k)
    {set : CString → ServerOptions} {o : ServerOptions} (hput : ∀ v, o.put k v = some (set v))
    {v : CString} : o.arg (key ++ v) = some (set v) := by
  rw [arg_put o v hkey h, hput]

theorem arg_flag {key k : CString} (hkey : key = k ++ ['=']) (h : '=' ∉ k)
    {set : Bool → ServerOptions} {o : ServerOptions}
    (hput : ∀ v, o.put k v = some (set (parseBoolean v))) {b : Bool} :
    o.arg (key ++ flagName b) = some (set b) := by
  rw [arg_put o _ hkey h, hput, parseBoolean_flagName]

theorem arg_int {key k : CString} (hkey : key = k ++ ['=']) (h : '=' ∉ k)
    {set : Int → ServerOptions} {o : ServerOptions} (hput : ∀ v, o.put k v = (parseInt v).map set)
    {n : Int} (hn : IsInt n) : o.arg (key ++ decimal n) = some (set n) := by
  rw [arg_put o _ hkey h, hput, parseInt_decimal hn.1 hn.2, Option.map_some]

section

variable (o : ServerOptions)

theorem arg_socketName (v : CString) :
    o.arg ("socket_name=".toList ++ v) = some { o with socketName := v } :=
  arg_text (k := "socket_name".toList) rfl (by decide) (fun _ => rfl)

theorem arg_codec (v : CString) : o.arg ("codec=".toList ++ v) = some { o with codec := v } :=
  arg_text (k := "codec".toList) rfl (by decide) (fun _ => rfl)

theorem arg_token (v : CString) : o.arg ("token=".toList ++ v) = some { o with token := some v } :=
  arg_text (k := "token".toList) rfl (by decide) (fun _ => rfl)

theorem arg_audio (b : Bool) :
    o.arg ("audio=".toList ++ flagName b) = some { o with audio := b } :=
  @arg_flag _ "audio".toList rfl (by decide) (fun b => { o with audio := b }) o (fun _ => rfl) b

theorem arg_control (b : Bool) :
    o.arg ("control=".toList ++ flagName b) = some { o with control := b } :=
  @arg_flag _ "control".toList rfl (by decide) (fun b => { o with control := b }) o (fun _ => rfl) b

theorem arg_tcp (b : Bool) : o.arg ("tcp=".toList ++ flagName b) = some { o with tcp := b } :=
  @arg_flag _ "tcp".toList rfl (by decide) (fun b => { o with tcp := b }) o (fun _ => rfl) b

variable {n : Int}

theorem arg_maxSize (h : IsInt n) :
    o.arg ("max_size=".toList ++ decimal n) = some { o with maxSize := n } :=
  arg_int (k := "max_size".toList) rfl (by decide) (fun _ => rfl) h

theorem arg_bitRate (h : IsInt n) :
    o.arg ("bit_rate=".toList ++ decimal n) = some { o with bitRate := n } :=
  arg_int (k := "bit_rate".toList) rfl (by decide) (fun _ => rfl) h

theorem arg_maxFps (h : IsInt n) :
    o.arg ("max_fps=".toList ++ decimal n) = some { o with maxFps := n } :=
  arg_int (k := "max_fps".toList) rfl (by decide) (fun _ => rfl) h

theorem arg_port (h : IsInt n) : o.arg ("port=".toList ++ decimal n) = some { o with port := n } :=
  arg_int (k := "port".toList) rfl (by decide) (fun _ => rfl) h

end

/-! ## All of them -/

variable {cfg : RcConfig} {socketName : Option CString} {tcpPort : Int} {token : Option CString}

/-- Where nothing is cut, the server reads the client's parameters. -/
theorem parseOptions_serverKvs (hcfg : cfg.Ints) (hport : IsInt tcpPort)
    (hfits : ∀ p ∈ (serverKvs cfg socketName tcpPort token).all, p.Fits)
    (serial : Option CString) :
    parseOptions ((serverKvs cfg socketName tcpPort token).args tcpPort) =
      some (launched (serverArgs serial cfg socketName tcpPort token)) := by
  have hrate : IsInt (if 0 < cfg.bitRate then cfg.bitRate else 8000000) := by
    split
    · exact hcfg.bitRate
    · decide
  have hfps : IsInt (if 0 < cfg.maxFps then cfg.maxFps else 60) := by
    split
    · exact hcfg.maxFps
    · decide
  rw [args_eq hfits]
  unfold parseOptions ServerKvs.given serverKvs launched serverArgs
  simp only [List.map_append, List.map_cons, List.map_nil, List.foldlM_append, List.foldlM_cons,
    List.foldlM_nil, arg_socketName, arg_maxSize _ hcfg.maxSize, arg_bitRate _ hrate,
    arg_maxFps _ hfps, arg_codec, arg_audio, arg_control, arg_tcp, Option.bind_eq_bind,
    Option.bind_some, Option.pure_def]
  -- the port and the token are there or not
  generalize token.filter (· ≠ []) = given
  by_cases htcp : 0 < tcpPort
  · simp only [htcp, if_true, List.map_cons, List.map_nil, List.foldlM_cons, List.foldlM_nil,
      arg_port _ hport, Option.bind_eq_bind, Option.bind_some, Option.pure_def]
    cases given with
    | none => rfl
    | some t =>
      simp only [Option.map_some, Option.toList_some, List.map_cons, List.map_nil,
        List.foldlM_cons, List.foldlM_nil, arg_token, Option.bind_eq_bind, Option.bind_some]
      rfl
  · simp only [htcp, if_false, List.map_nil, List.foldlM_nil, Option.bind_some, Option.pure_def]
    cases given with
    | none => rfl
    | some t =>
      simp only [Option.map_some, Option.toList_some, List.map_cons, List.map_nil,
        List.foldlM_cons, List.foldlM_nil, arg_token, Option.bind_eq_bind, Option.bind_some]
      rfl

/-- The codec comes back as it was asked for. -/
theorem codecFromMeta_codecName {codec : RcCodec} {o : ServerOptions}
    (h : o.codec = codecName codec) : codecFromMeta o.codecId = some codec := by
  unfold ServerOptions.codecId
  rw [h]
  cases codec <;> decide

/-- **Both sides agree on the session.** For every configuration, every name that
`rc_client_create` makes, every port and every token: nothing is cut and the argv has
room; the server's options are the client's parameters; the codec it announces is the
one asked for; and it opens the channels that the client waits for. -/
theorem server_gets_config (serial : Option CString) (hcfg : cfg.Ints)
    (hsocket : ∀ name ∈ socketName,
      ∃ pid id, IsInt pid ∧ IsInt id ∧ name = (clientSocketName pid id).buffer)
    (hport : IsInt tcpPort) (htoken : ∀ t ∈ token, t.length = 32) :
    (∀ pid id, IsInt pid → IsInt id → (clientSocketName pid id).Fits) ∧
    (∀ p ∈ (serverKvs cfg socketName tcpPort token).all, p.Fits) ∧
    (serverArgv serial cfg socketName tcpPort token).length < serverArgvSize ∧
    ∃ o, parseOptions ((serverKvs cfg socketName tcpPort token).args tcpPort) = some o ∧
      o.maxSize = cfg.maxSize ∧
      o.bitRate = (if 0 < cfg.bitRate then cfg.bitRate else 8000000) ∧
      o.maxFps = (if 0 < cfg.maxFps then cfg.maxFps else 60) ∧
      o.audio = cfg.audio ∧ o.control = cfg.control ∧
      (o.tcp = true ↔ 0 < tcpPort) ∧ (0 < tcpPort → o.port = tcpPort) ∧
      o.token = token ∧ o.socketName = socketName.getD rcLocalabstractName ∧
      codecFromMeta o.codecId = some cfg.codec ∧
      o.connection.channels = clientChannels cfg := by
  have hname : ∀ name ∈ socketName, name.length ≤ 34 := by
    intro name hname
    obtain ⟨pid, id, hpid, hid, rfl⟩ := hsocket name hname
    obtain ⟨hfits, hlength⟩ := clientSocketName_fits hpid hid
    rwa [buffer_eq hfits]
  have hfits := serverKvs_fits hcfg hname hport htoken
  have htoken' : token.filter (· ≠ []) = token := by
    cases token with
    | none => rfl
    | some t =>
      refine Option.filter_some_pos (decide_eq_true ?_)
      rintro rfl
      cases htoken [] rfl
  refine ⟨fun pid id hpid hid => (clientSocketName_fits hpid hid).1, hfits,
    length_serverArgv serial cfg socketName tcpPort token, _,
    parseOptions_serverKvs hcfg hport hfits serial, rfl, rfl, rfl, rfl, rfl, decide_eq_true_iff,
    fun htcp => ?_, htoken', rfl, codecFromMeta_codecName rfl, rfl⟩
  simp [launched, serverArgs, htcp]

/-- No audio, and a negative size, which stands for the full one. -/
def plainConfig : RcConfig where
  serial := none
  transport := .tcp
  tcpAddr := some "10.0.0.9:40000".toList
  tcpDevicePort := 27183
  maxSize := -1
  bitRate := 0
  maxFps := 0
  codec := .h265
  control := true
  audio := false

theorem server_gets_config_plain : ∃ o,
    parseOptions ((serverKvs plainConfig (some (clientSocketName 4711 3).buffer) 27183
      (some (List.replicate 32 'f'))).args 27183) = some o ∧
    o.maxSize = -1 ∧ codecFromMeta o.codecId = some .h265 ∧
    o.connection.channels = [.video, .control] := by
  obtain ⟨-, -, -, o, hparse, hsize, -, -, -, -, -, -, -, -, hcodec, hchannels⟩ :=
    @server_gets_config plainConfig (some (clientSocketName 4711 3).buffer) 27183
      (some (List.replicate 32 'f')) (some "emulator-5554".toList)
      ⟨by decide, by decide, by decide⟩
      (fun name hname => ⟨4711, 3, by decide, by decide, (Option.some.inj hname).symm⟩)
      (by decide) (fun t ht => by rw [← Option.some.inj ht]; rfl)
  exact ⟨o, hparse, hsize, hcodec, hchannels⟩

end RigControl.Wire
