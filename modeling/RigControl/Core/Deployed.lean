import RigControl.Core.Holding

/-!
# What a deployment leaves

`deploy_usb` and `deploy_tcp` end connected as the config says (`Deployed`), or with an
error and a client that is still sound (`Failed`). When `deploy_tcp` goes over to the
tunnel, it has taken down what it had, and starts from a client that holds nothing
(`Quiet.toUsb`).
-/

namespace RigControl.Core

open RigControl.Lib

variable {l : Loose} {c c' : RcClient} (env : Env)

/-! ## Deployment over the adb tunnel -/

/-- No thread runs, and there is no decoder and no player. -/
structure RcClient.Idle (c : RcClient) : Prop where
  running : c.running = false
  netThread : c.netThread = false
  audioThread : c.audioThread = false
  decoder : c.decoder = false
  audioPlayer : c.audioPlayer = false

theorem RcClient.Idle.setSock (h : c.Idle) (k : Sock) (fd : Option Nat) : (c.setSock k fd).Idle := by
  cases k <;> exact ⟨h.1, h.2, h.3, h.4, h.5⟩

theorem RcClient.Idle.withToken (h : c.Idle) (token : CString) : (c.withToken token).Idle :=
  ⟨h.1, h.2, h.3, h.4, h.5⟩

/-- A deployment that has failed, before it is taken down. -/
def Failed (w : RcStatus) (c : RcClient) : Prop := w ≠ .ok ∧ ∃ v, v.Idle ∧ Here v [] c

/-- The fields of a client that is connected as `cfg` says. -/
structure Linked (cfg : RcConfig) (v : RcClient) : Prop where
  idle : v.Idle
  config : v.cfg = { cfg with transport := v.cfg.transport }
  video : v.videoFd.isSome = true
  audio : v.audioFd.isSome = cfg.audio
  control : v.controlFd.isSome = cfg.control
  listen : v.listenFd = none
  token : v.cfg.transport = .usb → v.lanToken = []

/-- No server is running. -/
def Quiet (v : RcClient) (l : Loose) (c : RcClient) : Prop := c.serverPid = none ∧ Here v l c

theorem quiet_neutral (v : RcClient) : Neutral (Quiet v) :=
  Neutral.and (I := fun _ c => c.serverPid = none)
    { calls := fun _ _ _ h => h
      clock := fun _ _ _ h => h
      emit := fun _ _ _ h => h
      abort := fun _ _ _ h => h
      received := fun _ _ _ h => h
      acquire := fun _ _ _ h => h
      release := fun _ _ _ _ h => h
      reap := fun _ _ _ _ _ => rfl } (here_neutral v)

theorem Here.setSock {v : RcClient} {k : Sock} {fd : Option Nat}
    (h : Here v (looseOf (v.cfg.linkOf k) fd ++ l) c) (hfree : v.sock k = none) :
    Here (v.setSock k fd) l (c.setSock k fd) := by
  have hfree' : c.sock k = none := (h.sock k).trans hfree
  have hcfg := h.cfg
  obtain ⟨hstill, hsound⟩ := h
  refine ⟨?_, Sound.setSock (hcfg ▸ hsound) hfree'⟩
  show (c.setSock k fd).still = v.setSock k fd
  rw [still_setSock, show c.still = v from hstill]

/-- `adb reverse` for the session. -/
theorem rcAdbReverse_spec {v : RcClient} (husb : v.cfg.transport = .usb) (port : Int)
    {E : RcStatus → RcClient → Prop} :
    Triple (Quiet v l) (rcAdbReverse env v.cfg.serial v.socketName port) (fun _ => Quiet v l) E := by
  refine ((quiet_neutral v).adbRun_spec env _).bind fun r => ?_
  refine .ite (fun _ => .bind (Q := fun _ => Quiet v l) (.modify ?_) fun _ => .pure fun _ hc => hc)
    fun _ => .pure fun _ hc => hc
  rintro c ⟨hpid, hhere⟩
  refine ⟨hpid, hhere.1, { hhere.2 with reverses := fun r hr => ?_ }⟩
  rcases List.mem_insert_iff.mp hr with rfl | hr
  · rw [hhere.cfg, hhere.socketName]
    exact ⟨husb, rfl⟩
  · exact hhere.2.reverses r hr

/-- The server is started where none is running. -/
theorem rcAdbRunServer_spec (v : RcClient) (serial : Option CString) (socketName : Option CString)
    {tcpPort : Int} (hport : 0 < tcpPort ↔ v.cfg.transport = .tcp) (token : Option CString)
    {E : RcStatus → RcClient → Prop} :
    Triple (Quiet v l) (rcAdbRunServer env serial v.cfg socketName tcpPort token)
      (fun _ => Here v l) E := by
  refine (quiet_neutral v).ask_bind fun n => .ite (fun _ => ?_) fun _ => .pure fun _ hc => hc.2
  refine .bind (Q := fun _ => Here v l) (.modify ?_) fun _ => .pure fun _ hc => hc
  rintro c ⟨hpid, hhere⟩
  have hsound := hhere.2
  refine ⟨hhere.1, { hsound with procs := ?_, server := ?_ }⟩
  · have hprocs := hsound.procs
    rw [hpid] at hprocs
    exact hprocs.acquire _
  · rintro pid ⟨⟩
    refine ⟨_, Ledger.acquire_next _ _, ?_⟩
    show (decide (0 < tcpPort)) = true ↔ c.cfg.transport = .tcp
    rw [decide_eq_true_iff, hhere.cfg]
    exact hport

theorem acceptSock_spec {v : RcClient} {k : Sock} (hlink : v.cfg.linkOf k = .accepted)
    (hfree : v.sock k = none) {E : RcStatus → RcClient → Prop} :
    Triple (Here v l) (acceptSock env k)
      (fun b c => ∃ fd : Option Nat, b = fd.isSome ∧ Here (v.setSock k fd) l c) E := by
  refine (acceptTimeout_spec env (here_neutral v) _).bind fun fd => ?_
  refine .bind (Q := fun _ => Here (v.setSock k fd) l) (.modify fun c hc => ?_)
    fun _ => .pure fun c hc => ⟨fd, rfl, hc⟩
  rw [← hlink] at hc
  exact hc.setSock hfree

theorem acceptOr_spec {v : RcClient} (hidle : v.Idle) {k : Sock}
    (hlink : v.cfg.linkOf k = .accepted) (hfree : v.sock k = none) (want : Bool)
    {fail : ClientM Unit} (hfail : ∀ v' : RcClient, v'.Idle →
      Triple (Here v' []) fail (fun _ _ => False) Failed) :
    Triple (Here v []) (acceptOr env k want fail)
      (fun _ c => ∃ fd : Option Nat, fd.isSome = want ∧ Here (v.setSock k fd) [] c) Failed := by
  refine .ite (fun hwant => ?_) fun hwant => .pure fun c hc => ?_
  · refine (acceptSock_spec env hlink hfree).bind fun b => .exists_pre fun fd => .of_and fun hb => ?_
    subst hb
    refine .ite (fun hfd => .pure fun c hc => ⟨fd, hfd.trans hwant.symm, hc⟩) fun _ => ?_
    exact (hfail _ (hidle.setSock k fd)).post fun _ _ h => h.elim
  · refine ⟨none, (Bool.not_eq_true want ▸ hwant).symm, ?_⟩
    rw [setSock_same hfree]
    exact hc

theorem noVideo_spec (v : RcClient) (hidle : v.Idle) :
    Triple (Here v []) noVideo (fun _ _ => False) Failed :=
  ((here_neutral v).rcEmitStatus_spec _ _).bind fun _ =>
    .throw fun _ hc => ⟨by decide, v, hidle, hc⟩

theorem throw_failed (v : RcClient) (hidle : v.Idle) :
    Triple (Here v []) (throw .errConnect) (fun (_ : Unit) _ => False) Failed :=
  .throw fun _ hc => ⟨by decide, v, hidle, hc⟩

theorem acceptAll_spec {v : RcClient} (hidle : v.Idle) (husb : v.cfg.transport = .usb)
    (hvideo : v.videoFd = none) (haudio : v.audioFd = none) (hcontrol : v.controlFd = none)
    (cfg : RcConfig) :
    Triple (Here v []) (acceptAll env cfg)
      (fun _ c => ∃ a b d : Option Nat,
        (a.isSome = true ∧ b.isSome = cfg.audio ∧ d.isSome = cfg.control) ∧
        Here (((v.setSock .video a).setSock .audio b).setSock .control d) [] c) Failed := by
  have hlink : ∀ k, k ≠ .listen → v.cfg.linkOf k = .accepted := by
    intro k hk
    cases k <;> simp_all [RcConfig.linkOf]
  refine (acceptOr_spec env hidle (hlink .video (by decide)) hvideo true noVideo_spec).bind
    fun _ => .exists_pre fun a => .of_and fun ha => ?_
  refine (acceptOr_spec (v := v.setSock .video a) env (hidle.setSock _ _)
    (hlink .audio (by decide)) haudio cfg.audio throw_failed).bind fun _ => .exists_pre fun b => .of_and fun hb => ?_
  refine (acceptOr_spec (v := (v.setSock .video a).setSock .audio b) env
    ((hidle.setSock _ _).setSock _ _) (hlink .control (by decide)) hcontrol cfg.control
    throw_failed).post fun _ c hc => ?_
  obtain ⟨d, hd, hc⟩ := hc
  exact ⟨a, b, d, ⟨ha, hb, hd⟩, hc⟩

/-- What deploying establishes. -/
def Deployed (cfg : RcConfig) (c : RcClient) : Prop :=
  c.HasMeta ∧ ∃ v, Linked cfg v ∧ Here v [] c

/-- **The deployment over the adb tunnel** connects, or it fails. -/
theorem deployUsb_spec {v : RcClient} (hidle : v.Idle) (husb : v.cfg.transport = .usb)
    (htoken : v.lanToken = []) (hfree : ∀ k, v.sock k = none) :
    Triple (Quiet v []) (deployUsb env)
      (fun _ => Deployed v.cfg) Failed := by
  have hfail : ∀ {v' : RcClient}, v'.Idle → ∀ w c, w ≠ .ok ∧ Quiet v' [] c → Failed w c :=
    fun hidle w c h => ⟨h.1, _, hidle, h.2.2⟩
  refine .get_bind fun c hc => ?_
  rw [hc.2.cfg, hc.2.socketName]
  refine .bind (((ensureAdbDevice_spec env (quiet_neutral v) _)).conseq (fun _ h => h)
    (fun _ _ h => h) (hfail hidle)) fun _ => ?_
  refine ((quiet_neutral v).adbRun_spec env _).bind fun r => ?_
  refine .bind ((orFail_spec (quiet_neutral v) r _).conseq (fun _ h => h) (fun _ _ h => h)
    (hfail hidle)) fun _ => ?_
  refine ((quiet_neutral v).rcNetListenLoopback_spec env).bind fun r => ?_
  refine .bind (Q := fun _ => Quiet (v.setSock .listen (r.map Prod.fst)) []) (.modify fun c hc =>
    ⟨by rw [setSock_serverPid]; exact hc.1, hc.2.setSock (hfree .listen)⟩) fun _ => ?_
  cases r with
  | none => exact .throw fun c hc => ⟨by decide, _, hidle.setSock .listen none, hc.2⟩
  | some r =>
    obtain ⟨fd, port⟩ := r
    have hidle1 := hidle.setSock .listen (some fd)
    refine (rcAdbReverse_spec (v := v.setSock .listen (some fd)) env husb port).bind fun r => ?_
    refine .bind ((orFail_spec (quiet_neutral _) r _).conseq (fun _ h => h) (fun _ _ h => h)
      (hfail hidle1)) fun _ => ?_
    have hport : (0 : Int) < 0 ↔ v.cfg.transport = .tcp := by simp [husb]
    refine (rcAdbRunServer_spec env (v.setSock .listen (some fd)) _ _ hport _).bind fun r => ?_
    refine .bind ((orFail_spec (here_neutral _) r _).conseq (fun _ h => h) (fun _ _ h => h)
      fun w c h => ⟨h.1, _, hidle1, h.2⟩) fun _ => ?_
    refine (acceptAll_spec env hidle1 husb (hfree .video) (hfree .audio) (hfree .control) _).bind
      fun _ => .exists_pre fun a => .exists_pre fun b => .exists_pre fun d => .of_and fun hsome => ?_
    refine (closeSock_spec _ .listen).bind fun _ => ?_
    have hidle2 := (((hidle1.setSock .video a).setSock .audio b).setSock .control d).setSock .listen none
    refine (readMetaTimeout_spec env (here_neutral _) _).attempt.bind fun r => ?_
    cases r with
    | error r =>
      refine .of_and fun hr => ((here_neutral _).rcEmitStatus_spec _ _).bind fun _ => ?_
      exact .throw fun c hc => ⟨hr, _, hidle2, hc⟩
    | ok u =>
      exact .modify fun c hc => ⟨hc.1, _, ⟨hidle2, rfl, hsome.1, hsome.2.1, hsome.2.2, rfl,
        fun _ => htoken⟩, hc.2.1, hc.2.2.of_eq rfl⟩

/-! ## Deployment over TCP -/

theorem Linked.of_transport {cfg : RcConfig} {t : RcTransport} {v : RcClient}
    (h : Linked { cfg with transport := t } v) : Linked cfg v :=
  ⟨h.idle, h.config, h.video, h.audio, h.control, h.listen, h.token⟩

theorem Quiet.withToken {v : RcClient} (h : Quiet v l c) (token : CString) :
    Quiet (v.withToken token) l (c.withToken token) := by
  refine ⟨h.1, ?_, h.2.2.of_eq rfl⟩
  show (c.withToken token).still = v.withToken token
  rw [← show c.still = v from h.2.1]
  rfl

/-- Going over to the tunnel, when nothing is held. -/
theorem Quiet.toUsb {v : RcClient} (h : Quiet v [] c) (hfree : ∀ k, v.sock k = none)
    (htcp : v.cfg.transport = .tcp) : Quiet v.toUsb [] c.toUsb := by
  have hfree' : ∀ k, c.sock k = none := fun k => (h.2.sock k).trans (hfree k)
  have hsound := h.2.2
  refine ⟨h.1, ?_, .nothing (hsound.fds_nil hfree') (hsound.procs_nil h.1)
    (hsound.no_reverses (h.2.cfg ▸ htcp)) hfree' h.1⟩
  show c.toUsb.still = v.toUsb
  rw [← show c.still = v from h.2.1]
  rfl

theorem connectSock_spec {v : RcClient} {k : Sock} (hlink : v.cfg.linkOf k = .tcp)
    (hfree : v.sock k = none) (host : CString) (port : Int) (budgetMs : Nat)
    {E : RcStatus → RcClient → Prop} :
    Triple (Here v l) (connectSock env k host port budgetMs)
      (fun b c => ∃ fd : Option Nat, b = fd.isSome ∧ Here (v.setSock k fd) l c) E := by
  refine (connectRetry_spec env (here_neutral v) host port budgetMs).bind fun fd => ?_
  refine .bind (Q := fun _ => Here (v.setSock k fd) l) (.modify fun c hc => ?_)
    fun _ => .pure fun c hc => ⟨fd, rfl, hc⟩
  rw [← hlink] at hc
  exact hc.setSock hfree

theorem connectOr_spec {v : RcClient} {k : Sock} (hlink : v.cfg.linkOf k = .tcp)
    (hfree : v.sock k = none) (want : Bool) (host : CString) (port : Int)
    {E : RcStatus → RcClient → Prop} :
    Triple (Here v l) (connectOr env k want host port)
      (fun b c => ∃ fd : Option Nat, (b = true → fd.isSome = want) ∧ Here (v.setSock k fd) l c)
      E := by
  refine .ite (fun hwant => ?_) fun hwant => .pure fun c hc => ?_
  · refine (connectSock_spec env hlink hfree host port 1000).post fun b c ⟨fd, hb, hc⟩ => ?_
    exact ⟨fd, fun hok => (hb.symm.trans hok).trans hwant.symm, hc⟩
  · refine ⟨none, fun _ => (Bool.not_eq_true want ▸ hwant).symm, ?_⟩
    rw [setSock_same hfree]
    exact hc

/-- Whether it connects or fails, each connection is in its field. -/
theorem openStreams_spec {v : RcClient} (htcp : v.cfg.transport = .tcp)
    (hfree : ∀ k, v.sock k = none) (cfg : RcConfig) (host : CString) (port : Int) (deployed : Bool)
    {E : RcStatus → RcClient → Prop} :
    Triple (Here v []) (openStreams env cfg host port deployed)
      (fun r c => ∃ a b d : Option Nat,
        (r = none → c.HasMeta ∧ a.isSome = true ∧ b.isSome = cfg.audio ∧ d.isSome = cfg.control) ∧
        Here (((v.setSock .video a).setSock .audio b).setSock .control d) [] c) E := by
  have hlink : ∀ k, k ≠ .listen → v.cfg.linkOf k = .tcp := by
    intro k hk
    cases k <;> simp_all [RcConfig.linkOf]
  have hfree1 : ∀ a, (v.setSock .video a).sock .audio = none := fun _ => hfree .audio
  have hfree2 : ∀ a b, ((v.setSock .video a).setSock .audio b).sock .control = none :=
    fun _ _ => hfree .control
  refine (connectSock_spec env (hlink .video (by decide)) (hfree .video) host port _).bind fun r =>
    .exists_pre fun a => .of_and fun ha => .ite (fun hr => ?_) fun _ => ?_
  · refine (connectOr_spec (v := v.setSock .video a) env (hlink .audio (by decide)) (hfree1 a)
      cfg.audio host port).bind fun s => .exists_pre fun b => .of_and fun hb => .ite (fun hs => ?_)
      fun _ => ?_
    · refine (connectOr_spec (v := (v.setSock .video a).setSock .audio b) env
        (hlink .control (by decide)) (hfree2 a b) cfg.control host port).bind fun t =>
        .exists_pre fun d => .of_and fun hd => .ite (fun ht => ?_) fun _ => ?_
      · refine (readMetaTimeout_spec env (here_neutral _) _).attempt.bind fun r => ?_
        cases r with
        | error r => exact .pure fun c hc => ⟨a, b, d, (by simp), hc.2⟩
        | ok u =>
          exact .pure fun c hc => ⟨a, b, d, fun _ => ⟨hc.1, ha ▸ hr, hb hs, hd ht⟩, hc.2⟩
      · exact .pure fun c hc => ⟨a, b, d, (by simp), hc⟩
    · refine .pure fun c hc => ⟨a, b, none, (by simp), ?_⟩
      rw [setSock_same (hfree2 a b)]
      exact hc
  · refine .pure fun c hc => ⟨a, none, none, (by simp), ?_⟩
    rw [setSock_same (hfree2 a none), setSock_same (hfree1 a)]
    exact hc

theorem mayFallBack_spec {I : Loose → RcClient → Prop} (hI : Neutral I) (deployed : Bool)
    {E : RcStatus → RcClient → Prop} :
    Triple (I l) (mayFallBack env deployed) (fun _ => I l) E :=
  .ite (fun _ => (hI.abortRequested_spec env).bind fun _ => .pure fun _ hc => hc)
    fun _ => .pure fun _ hc => hc

theorem connectAll_spec {v : RcClient} (hidle : v.Idle) (htcp : v.cfg.transport = .tcp)
    (hfree : ∀ k, v.sock k = none) (host : CString) (port : Int) (deployed : Bool) :
    Triple (Here v []) (connectAll env v.cfg host port deployed) (fun _ => Deployed v.cfg)
      Failed := by
  refine (openStreams_spec env htcp hfree v.cfg host port deployed).bind fun r =>
    .exists_pre fun a => .exists_pre fun b => .exists_pre fun d => ?_
  have hidle' := ((hidle.setSock .video a).setSock .audio b).setSock .control d
  have htcp' : (((v.setSock .video a).setSock .audio b).setSock .control d).cfg.transport = .tcp := htcp
  have hlisten : (((v.setSock .video a).setSock .audio b).setSock .control d).sock .listen = none :=
    hfree .listen
  have hcfg' : (((v.setSock .video a).setSock .audio b).setSock .control d).cfg = v.cfg := rfl
  cases r with
  | none =>
    refine .modify fun c hc => ?_
    obtain ⟨hmeta, ha, hb, hd⟩ := hc.1 rfl
    refine ⟨hmeta, _, ⟨hidle', rfl, ha, hb, hd, hlisten, fun husb => ?_⟩, hc.2.1,
      hc.2.2.of_eq rfl⟩
    rw [htcp'] at husb
    cases husb
  | some fail =>
    generalize ((v.setSock .video a).setSock .audio b).setSock .control d = v' at *
    refine .pre ?_ fun _ hc => hc.2
    refine (mayFallBack_spec env (here_neutral v') deployed).bind fun r => .ite (fun _ => ?_) fun _ => ?_
    · refine ((here_neutral v').rcEmitStatus_spec _ _).bind fun _ => ?_
      refine (rcServerTeardown_spec env v').bind fun _ => ?_
      refine .bind (Q := fun _ => Quiet (v'.noSocks.withToken []).toUsb [])
        (.modify fun c ⟨hstill, hdown⟩ => ?_) fun _ => ?_
      · have hquiet : Quiet v'.noSocks [] c := ⟨hdown.serverPid, hstill, hdown.sound⟩
        exact (hquiet.withToken []).toUsb (noSocks_sock v') htcp'
      · refine (deployUsb_spec (v := (v'.noSocks.withToken []).toUsb) env
          ⟨hidle'.1, hidle'.2, hidle'.3, hidle'.4, hidle'.5⟩ rfl rfl (noSocks_sock v')).post fun _ c ⟨hmeta, v'', hlinked, hhere⟩ => ?_
        have hlinked' : Linked v'.cfg v'' := hlinked.of_transport
        exact ⟨hmeta, v'', hcfg' ▸ hlinked', hhere⟩
    · exact ((here_neutral v').rcEmitStatus_spec _ _).bind fun _ =>
        .throw fun c hc => ⟨by decide, v', hidle', hc⟩

theorem genLanToken_spec (v : RcClient) {E : RcStatus → RcClient → Prop} :
    Triple (Quiet v []) (genLanToken env)
      (fun _ c => ∃ token, Quiet (v.withToken token) [] c) E := by
  have hopen : Triple (Quiet v []) (openRandom env) (fun _ => Quiet v []) E := by
    refine (quiet_neutral v).ask_bind fun n => .ite (fun _ => ?_) fun _ => .pure fun _ hc => hc
    exact (quiet_neutral v).newFd_bind fun fd => (quiet_neutral v).closeFd_spec fd .random
  exact hopen.bind fun _ => (quiet_neutral v).ask_bind fun n =>
    .modify fun c hc => ⟨_, hc.withToken _⟩

theorem startServer_spec {v : RcClient} (hidle : v.Idle) (htcp : v.cfg.transport = .tcp) {port : Int}
    (hport : 0 < port) :
    Triple (Quiet v []) (startServer env v.cfg port)
      (fun _ c => ∃ token, Here (v.withToken token) [] c) Failed := by
  refine .bind ((ensureAdbDevice_spec env (quiet_neutral v) _).conseq (fun _ h => h)
    (fun _ _ h => h) fun w c h => ⟨h.1, v, hidle, h.2.2⟩) fun _ => ?_
  refine ((quiet_neutral v).adbRun_spec env _).bind fun r => ?_
  refine .bind ((orFail_spec (quiet_neutral v) r _).conseq (fun _ h => h) (fun _ _ h => h)
    fun w c h => ⟨h.1, v, hidle, h.2.2⟩) fun _ => ?_
  refine (genLanToken_spec env v).bind fun _ => .exists_pre fun token => .get_bind fun _ _ => ?_
  have hdev : 0 < (if 0 < v.cfg.tcpDevicePort then v.cfg.tcpDevicePort else port) ↔
      v.cfg.transport = .tcp := by
    refine iff_of_true ?_ htcp
    split <;> assumption
  refine (rcAdbRunServer_spec env (v.withToken token) _ _ hdev _).bind fun r => ?_
  exact (orFail_spec (here_neutral _) r _).conseq (fun _ h => h) (fun _ c h => ⟨token, h⟩)
    fun w c h => ⟨h.1, _, hidle.withToken token, h.2⟩

theorem parseAddr_port {addr : Option CString} {host : CString} {port : Int}
    (h : parseAddr addr = some (host, port)) : 0 < port := by
  have hdefault : 0 < rcDefaultTcpPort := by decide
  unfold parseAddr at h
  split at h
  · cases h
  · split at h
    · split at h
      · cases h
      · cases h
        split
        · exact hdefault
        · omega
    · split at h
      · cases h
      · cases h
        exact hdefault

/-- **The deployment over TCP** connects, directly or over the tunnel, or it fails. -/
theorem deployTcp_spec {v : RcClient} (hidle : v.Idle) (htcp : v.cfg.transport = .tcp)
    (htoken : v.lanToken = []) (hfree : ∀ k, v.sock k = none) :
    Triple (Quiet v []) (deployTcp env) (fun _ => Deployed v.cfg) Failed := by
  refine .get_bind fun c hc => ?_
  rw [hc.2.cfg]
  cases haddr : parseAddr v.cfg.tcpAddr with
  | none =>
    exact ((quiet_neutral v).rcEmitStatus_spec _ _).bind fun _ =>
      .throw fun c hc => ⟨by decide, v, hidle, hc.2⟩
  | some p =>
    obtain ⟨host, port⟩ := p
    refine .ite (fun _ => ?_) fun _ => (connectAll_spec env hidle htcp hfree host port false).pre
      fun _ hc => hc.2
    refine (portTaken_spec env (quiet_neutral v) v.cfg host port).bind fun taken =>
      .ite (fun _ => ?_) fun _ => ?_
    · refine ((quiet_neutral v).rcEmitStatus_spec _ _).bind fun _ => ?_
      refine .bind (Q := fun _ => Quiet v.toUsb []) (.modify fun c hc => hc.toUsb hfree htcp)
        fun _ => ?_
      refine (deployUsb_spec (v := v.toUsb) env ⟨hidle.1, hidle.2, hidle.3, hidle.4, hidle.5⟩ rfl
        htoken hfree).post fun _ c ⟨hmeta, v', hlinked, hhere⟩ => ?_
      exact ⟨hmeta, v', hlinked.of_transport, hhere⟩
    · exact (startServer_spec env hidle htcp (parseAddr_port haddr)).bind fun _ =>
        .exists_pre fun token => connectAll_spec (v := v.withToken token) env (hidle.withToken token)
          htcp hfree host port true

theorem rcServerDeploy_spec {v : RcClient} (hidle : v.Idle) (htoken : v.lanToken = [])
    (hfree : ∀ k, v.sock k = none) :
    Triple (Quiet v []) (rcServerDeploy env) (fun _ => Deployed v.cfg) Failed := by
  refine .get_bind fun c hc => .ite (fun htcp => ?_) fun hne => ?_
  · exact deployTcp_spec env hidle (hc.2.cfg ▸ htcp) htoken hfree
  · refine deployUsb_spec env hidle ?_ htoken hfree
    rw [hc.2.cfg] at hne
    cases htransport : v.cfg.transport with
    | usb => rfl
    | tcp => exact absurd htransport hne

end RigControl.Core
