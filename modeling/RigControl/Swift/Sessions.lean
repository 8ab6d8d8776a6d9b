import RigControl.Gtk.Ports
import RigControl.Gtk.Chooser

/-!
# The sessions of the Swift front end

`SessionManager.swift`, with the `rc_config` that `RCClient` makes of a `SessionConfig`.
The Swift front end forgets a session whose window is closed, where the one of GTK keeps
it as torn. `mirror` is the manager that has the live sessions of the GTK front end, and
`swift_mirrors` says how long the two do the same.
-/

namespace RigControl.Swift

open RigControl.Lib RigControl.Core
open RigControl.Gtk (App PortSession Settings Base UiAct uiLts uiStep address rcLanBasePort
  streamCount)

structure SessionConfig where
  serial : Option CString
  tcpAddr : Option CString
  tcpDevicePort : Int
  maxSize : Int
  bitRate : Int
  maxFps : Int
  control : Bool
  audio : Bool
  deriving DecidableEq, Repr

def SessionConfig.isTcp (cfg : SessionConfig) : Bool := cfg.tcpAddr.isSome

/-- What `RCClient.init` hands to `rc_client_create`. -/
def SessionConfig.rcConfig (cfg : SessionConfig) : RcConfig where
  serial := cfg.serial
  transport := if cfg.isTcp then .tcp else .usb
  tcpAddr := cfg.tcpAddr
  tcpDevicePort := cfg.tcpDevicePort
  maxSize := cfg.maxSize
  bitRate := cfg.bitRate
  maxFps := cfg.maxFps
  codec := .h264
  control := cfg.control
  audio := cfg.audio

structure SessionModel where
  config : SessionConfig
  torn : Bool
  lanPort : Int
  streamK : Int
  serialForAlloc : Option CString
  deriving DecidableEq, Repr

/-- The manager, and the devices of agents that the chooser has found: what `open` reads
of these is what the GTK front end keeps of them. -/
structure SessionManager where
  agentDevs : List Gtk.AgentDev
  controllers : List SessionModel
  deriving DecidableEq, Repr

def lanUsed (controllers : List SessionModel) (port : Int) : Bool :=
  controllers.any fun s => !s.torn && s.lanPort = port

/-- The loop has no end of its own; one turn more than there are controllers is enough
(`allocLanPort_first`). -/
def allocLanPort (controllers : List SessionModel) : Int :=
  (firstFree (lanUsed controllers) (controllers.length + 1) rcLanBasePort).getD rcLanBasePort

def streamUsed (controllers : List SessionModel) (serial : CString) (k : Nat) : Bool :=
  controllers.any fun s => !s.torn && s.streamK = k && s.serialForAlloc = some serial

def allocStreamK (controllers : List SessionModel) (serial : CString) : Int :=
  ((List.range streamCount).find? fun k => !streamUsed controllers serial k).elim (-1) fun k => k

def wirelessHost (serial : CString) : Option CString :=
  (splitAtColon serial).bind fun p => if p.1.isEmpty then none else some p.1

namespace SessionManager

/-- The model of the session that `open` shows. -/
def model (m : SessionManager) (base : SessionConfig) (serial : Option CString)
    (agentDev : Option Gtk.AgentDev) : SessionModel :=
  let cfg := { base with serial := serial }
  let tunnel : SessionModel := ⟨{ cfg with tcpAddr := none }, false, 0, -1, serial⟩
  match agentDev with
  | some ad =>
    match serial.filter fun _ => 0 < ad.streamBase with
    | some text =>
      let k := allocStreamK m.controllers text
      if 0 ≤ k then
        ⟨{ cfg with
            tcpAddr := some (address ad.host (ad.streamBase + k))
            tcpDevicePort := rcLanBasePort + k }, false, 0, k, serial⟩
      else tunnel
    | none => tunnel
  | none =>
    match serial.bind wirelessHost with
    | some host =>
      let lanPort := allocLanPort m.controllers
      ⟨{ cfg with tcpAddr := some (address host lanPort) }, false, lanPort, -1, serial⟩
    | none => tunnel

end SessionManager

/-- What both front ends read of the environment when the chooser is shown. -/
structure Environment where
  maxSize : Int
  bitRate : Int
  maxFps : Int
  control : Bool
  audio : Bool
  deriving DecidableEq, Repr

/-- `ChooserModel.makeConfig`. -/
def Environment.config (env : Environment) (sel : Settings) : SessionConfig where
  serial := none
  tcpAddr := none
  tcpDevicePort := 0
  maxSize := sel.maxSize
  bitRate := sel.bitRate
  maxFps := env.maxFps
  control := sel.control
  audio := sel.audio

/-- `app.base` of `main.c`. -/
def Environment.base (env : Environment) : Base where
  cfg := ⟨none, .usb, none, 0, env.maxSize, env.bitRate, env.maxFps, .h264, env.control, env.audio⟩
  transport := rfl
  tcpDevicePort := rfl

/-! ## The front end -/

inductive ManagerAct where
  /-- A device of the list is pressed. -/
  | press (serial : CString) (sel : Settings)
  /-- A scan of an agent is over. -/
  | register (ads : List Gtk.AgentDev)
  /-- A window is closed: `teardown`, and `onClose`. -/
  | close (i : Nat)
  deriving DecidableEq

namespace SessionManager

def agentDev (m : SessionManager) (serial : CString) : Option Gtk.AgentDev :=
  m.agentDevs.find? fun ad => ad.serial = serial

/-- `self.agentDevs[d.serial] = d`. -/
def register (m : SessionManager) (ad : Gtk.AgentDev) : SessionManager :=
  { m with agentDevs := ad :: m.agentDevs.filter fun old => old.serial ≠ ad.serial }

def opened (env : Environment) (m : SessionManager) (serial : CString) (sel : Settings) :
    SessionModel :=
  m.model (env.config sel) (some serial) (m.agentDev serial)

def step (env : Environment) (m : SessionManager) : ManagerAct → Option SessionManager
  | .press serial sel => some { m with controllers := m.opened env serial sel :: m.controllers }
  | .register ads => some (ads.foldl register m)
  | .close i =>
    if i < m.controllers.length then some { m with controllers := m.controllers.eraseIdx i }
    else none

end SessionManager

def managerLts (env : Environment) : Lts SessionManager ManagerAct :=
  { init := ⟨[], []⟩, step := SessionManager.step env }

/-! ## The mirror of the GTK front end -/

def configOf (cfg : RcConfig) : SessionConfig where
  serial := cfg.serial
  tcpAddr := cfg.tcpAddr
  tcpDevicePort := cfg.tcpDevicePort
  maxSize := cfg.maxSize
  bitRate := cfg.bitRate
  maxFps := cfg.maxFps
  control := cfg.control
  audio := cfg.audio

def mirrorSession (s : PortSession) : SessionModel :=
  ⟨configOf s.cfg, s.torn, s.lanPort, s.streamK, s.serialOwned⟩

def live (s : PortSession) : Bool := !s.torn

/-- The manager that has the live sessions. -/
def mirror (app : App) : SessionManager :=
  ⟨app.agentDevs, (app.sessions.filter live).map mirrorSession⟩

/-- The front ends open the device alike: what stands before the port is no address of its own
to `session_new`, and `on_row_activated` has room for it. -/
def Alike (app : App) (serial : CString) : Prop :=
  match app.agentDev serial with
  | some ad => 0 < ad.streamBase → ':' ∉ ad.host
  | none => ∀ host ∈ wirelessHost serial, ':' ∉ host ∧ host.length < 128

instance (app : App) (serial : CString) : Decidable (Alike app serial) := by
  unfold Alike
  split <;> infer_instance

/-- `rc_client_create` has its memory, and the front ends open the device alike. -/
def ActsAlike (app : App) : UiAct → Prop
  | .activate serial _ created => created = true ∧ Alike app serial
  | _ => True

instance (app : App) (act : UiAct) : Decidable (ActsAlike app act) := by
  unfold ActsAlike
  split <;> infer_instance

variable {env : Environment} {app : App} {serial : CString}

/-! ### The allocators -/

theorem any_live (sessions : List PortSession) (p : SessionModel → Bool) :
    ((sessions.filter live).map mirrorSession).any p =
      sessions.any fun s => live s && p (mirrorSession s) := by
  rw [List.any_map, List.any_filter]
  rfl

theorem lanUsed_mirror (app : App) (port : Int) :
    lanUsed (mirror app).controllers port = Gtk.lanPortUsed app.sessions port := by
  rw [lanUsed, mirror, any_live, Gtk.lanPortUsed]
  congr 1
  funext s
  show (!s.torn && (!s.torn && decide (s.lanPort = port))) = _
  rw [← Bool.and_assoc, Bool.and_self]

theorem streamUsed_mirror (app : App) (serial : CString) (k : Nat) :
    streamUsed (mirror app).controllers serial k =
      (app.sessions.map PortSession.use).any fun s => s.uses (some serial) k := by
  rw [streamUsed, mirror, any_live, List.any_map]
  congr 1
  funext s
  show (!s.torn && (!s.torn && decide (s.streamK = k) && decide (s.serialOwned = some serial))) =
    (!s.torn && decide (s.streamK = k) && s.serialOwned.isSome && decide (s.serialOwned = some serial))
  cases s.torn <;> cases s.serialOwned <;> simp

theorem allocLanPort_first (controllers : List SessionModel) :
    IsFirstFree (lanUsed controllers) rcLanBasePort (allocLanPort controllers) := by
  obtain ⟨port, hport, hfind⟩ := @firstFree_of_cover (lanUsed controllers) rcLanBasePort
    (controllers.map SessionModel.lanPort) (fun y _ hy => by
      obtain ⟨s, hs, hlan⟩ := List.any_eq_true.mp hy
      rw [Bool.and_eq_true, decide_eq_true_eq] at hlan
      exact List.mem_map.mpr ⟨s, hs, hlan.2⟩)
  rw [allocLanPort, hfind _ (by rw [List.length_map]; exact Nat.lt_succ_self _)]
  exact hport

theorem allocLanPort_mirror (app : App) :
    allocLanPort (mirror app).controllers = Gtk.allocLanPort app.sessions := by
  have hfirst := allocLanPort_first (mirror app).controllers
  rw [show lanUsed (mirror app).controllers = Gtk.lanPortUsed app.sessions from
    funext (lanUsed_mirror app)] at hfirst
  exact hfirst.unique (Gtk.allocLanPort_isFirstFree app.sessions)

theorem allocStreamK_mirror (app : App) (serial : CString) :
    allocStreamK (mirror app).controllers serial =
      Gtk.allocStreamKInt (app.sessions.map PortSession.use) (some serial) := by
  simp only [allocStreamK, Gtk.allocStreamKInt, Gtk.allocStreamK, streamUsed_mirror]

/-! ### What is opened -/

theorem agentDev_mirror (app : App) (serial : CString) :
    (mirror app).agentDev serial = app.agentDev serial := rfl

/-- A session of the GTK front end, by its configuration, is one of a `SessionConfig`. -/
theorem rcConfig_configOf {cfg : RcConfig} (hcodec : cfg.codec = .h264)
    (htransport : cfg.transport = if cfg.tcpAddr.isSome then .tcp else .usb) :
    (configOf cfg).rcConfig = cfg := by
  cases cfg
  simp only at hcodec htransport
  subst hcodec
  simp only [configOf, SessionConfig.rcConfig, SessionConfig.isTcp, htransport]
  rfl

/-- The way to the device without an address of its own. -/
theorem opened_tunnel (sel : Settings) (hrow : app.rowAddr serial = none)
    (hdev : ∀ ad ∈ app.agentDev serial, ad.streamBase ≤ 0)
    (hhost : app.agentDev serial = none → wirelessHost serial = none) :
    (mirror app).opened env serial sel = mirrorSession (app.rowSession env.base sel serial) := by
  rw [App.rowSession, hrow, SessionManager.opened, agentDev_mirror]
  cases had : app.agentDev serial with
  | none =>
    have hnone := hhost had
    simp only [SessionManager.model, Option.bind_some, hnone]
    rfl
  | some ad =>
    have hbase : ¬0 < ad.streamBase := Int.not_lt.mpr (hdev ad had)
    simp only [SessionManager.model, Option.filter, hbase, decide_false, Bool.false_eq_true,
      if_false]
    rfl

theorem opened_stream (sel : Settings) {ad : Gtk.AgentDev} (had : app.agentDev serial = some ad)
    (hpos : 0 < ad.streamBase) (hcolon : ':' ∉ ad.host) :
    (mirror app).opened env serial sel = mirrorSession (app.rowSession env.base sel serial) := by
  have hcontains : ad.host.contains ':' = false := by simpa using hcolon
  rw [App.rowSession, Gtk.rowAddr_agent had hpos, SessionManager.opened, agentDev_mirror, had]
  simp only [SessionManager.model, Option.filter, hpos, decide_true, if_true, allocStreamK_mirror,
    Gtk.newSession, hcontains, Bool.false_eq_true, if_false, Gtk.sessionAgent]
  cases halloc : Gtk.allocStreamK (app.sessions.map PortSession.use) (some serial) with
  | none =>
    simp only [Gtk.allocStreamKInt, halloc, Option.elim_none, Option.map_none]
    rfl
  | some k =>
    simp only [Gtk.allocStreamKInt, halloc, Option.elim_some, Option.map_some, Int.natCast_nonneg,
      if_true]
    rfl

theorem opened_wireless (sel : Settings) {host : CString} (hnone : app.agentDev serial = none)
    (hrow : app.rowAddr serial = some host) (hhost : wirelessHost serial = some host)
    (hcolon : ':' ∉ host) :
    (mirror app).opened env serial sel = mirrorSession (app.rowSession env.base sel serial) := by
  have hcontains : host.contains ':' = false := by simpa using hcolon
  rw [App.rowSession, hrow, SessionManager.opened, agentDev_mirror, hnone]
  simp only [SessionManager.model, Option.bind_some, hhost, Gtk.newSession, hcontains,
    Bool.false_eq_true, if_false, Option.filter_none, allocLanPort_mirror]
  rfl

theorem wirelessHost_eq_some {host : CString} :
    wirelessHost serial = some host ↔ (∃ port, splitAtColon serial = some (host, port)) ∧ host ≠ [] := by
  unfold wirelessHost
  rw [Option.bind_eq_some_iff]
  constructor
  · rintro ⟨⟨h, port⟩, hsplit, hif⟩
    split at hif
    · cases hif
    · rename_i hne
      obtain rfl := Option.some.inj hif
      exact ⟨⟨port, hsplit⟩, fun hnil => hne (by rw [hnil]; rfl)⟩
  · rintro ⟨⟨port, hsplit⟩, hne⟩
    refine ⟨(host, port), hsplit, if_neg ?_⟩
    rwa [List.isEmpty_iff]

/-- `on_row_activated` hands over the host of a wireless device if it has room for it. -/
theorem rowAddr_host (hnone : app.agentDev serial = none) :
    app.rowAddr serial = (wirelessHost serial).filter fun host => host.length < 128 := by
  cases hhost : wirelessHost serial with
  | some host =>
    obtain ⟨⟨port, hsplit⟩, hne⟩ := wirelessHost_eq_some.mp hhost
    have hcolon : serial.contains ':' = true := by
      simpa using colon_mem_of_splitAtColon hsplit
    have hpos := List.length_pos_iff.mpr hne
    simp only [App.rowAddr, hnone, hcolon, if_true, hsplit, hpos, true_and, Option.filter,
      decide_eq_true_eq]
  | none =>
    have hempty : ∀ host port, splitAtColon serial = some (host, port) → host.length = 0 := by
      intro host port hsplit
      by_contra hne
      rw [wirelessHost_eq_some.mpr ⟨⟨port, hsplit⟩, fun h => hne (by rw [h]; rfl)⟩] at hhost
      cases hhost
    rw [Option.filter_none, App.rowAddr, hnone]
    cases hsplit : splitAtColon serial with
    | none => exact ite_self _
    | some p =>
      have hlen := hempty p.1 p.2 hsplit
      simp [hlen]

/-- Where the front ends open a device alike, they open the same session. -/
theorem opened_mirror (sel : Settings) (halike : Alike app serial) :
    (mirror app).opened env serial sel = mirrorSession (app.rowSession env.base sel serial) := by
  unfold Alike at halike
  cases had : app.agentDev serial with
  | some ad =>
    rw [had] at halike
    by_cases hpos : 0 < ad.streamBase
    · exact opened_stream sel had hpos (halike hpos)
    · have hrow : app.rowAddr serial = none := by simp only [App.rowAddr, had, if_neg hpos]
      refine opened_tunnel sel hrow (fun ad' had' => ?_) fun hnone => ?_
      · obtain rfl := Option.some.inj (had.symm.trans had')
        exact Int.not_lt.mp hpos
      · rw [had] at hnone
        cases hnone
  | none =>
    rw [had] at halike
    have hrow := rowAddr_host had
    cases hhost : wirelessHost serial with
    | none =>
      rw [hhost] at hrow
      refine opened_tunnel sel hrow (fun ad' had' => ?_) fun _ => hhost
      rw [had] at had'
      cases had'
    | some host =>
      obtain ⟨hcolon, hlen⟩ := halike host hhost
      rw [hhost, Option.filter, if_pos (decide_eq_true hlen)] at hrow
      exact opened_wireless sel had hrow hhost hcolon

theorem newSession_config (env : Environment) (sel : Settings) (sessions : List PortSession)
    (agentDev : Option Gtk.AgentDev) (serial tcpAddr : Option CString) :
    (configOf (Gtk.newSession env.base sel sessions agentDev serial tcpAddr).cfg).rcConfig =
      (Gtk.newSession env.base sel sessions agentDev serial tcpAddr).cfg := by
  unfold Gtk.newSession
  split
  · exact rcConfig_configOf rfl rfl
  · split
    · exact rcConfig_configOf rfl rfl
    · split
      · split
        · exact rcConfig_configOf rfl rfl
        · exact rcConfig_configOf rfl rfl
      · exact rcConfig_configOf rfl rfl

/-- A session whose address has a port of its own. -/
theorem rowSession_given (env : Environment) (sel : Settings) {addr : CString} (hrow : app.rowAddr serial = some addr)
    (hcolon : ':' ∈ addr) :
    (app.rowSession env.base sel serial).cfg.tcpAddr = some addr ∧
      (app.rowSession env.base sel serial).cfg.tcpDevicePort = 0 := by
  have hcontains : addr.contains ':' = true := by simpa using hcolon
  rw [App.rowSession, hrow]
  simp only [Gtk.newSession, hcontains, if_true]
  exact ⟨trivial, rfl⟩

theorem opened_stream_config (env : Environment) (sel : Settings) {ad : Gtk.AgentDev}
    (had : app.agentDev serial = some ad) (hpos : 0 < ad.streamBase) :
    ((mirror app).opened env serial sel).config.tcpAddr = none ∨
      0 < ((mirror app).opened env serial sel).config.tcpDevicePort := by
  rw [SessionManager.opened, agentDev_mirror, had]
  simp only [SessionManager.model, Option.filter, hpos, decide_true, if_true]
  split
  · right
    show 0 < rcLanBasePort + _
    unfold rcLanBasePort
    omega
  · exact .inl rfl

theorem opened_wireless_config (sel : Settings) {host : CString}
    (hnone : app.agentDev serial = none) (hhost : wirelessHost serial = some host) :
    ((mirror app).opened env serial sel).config.tcpAddr =
      some (address host (Gtk.allocLanPort app.sessions)) := by
  rw [SessionManager.opened, agentDev_mirror, hnone]
  simp only [SessionManager.model, Option.bind_some, hhost, allocLanPort_mirror]

/-- Elsewhere they hand the core something else. -/
theorem opened_differs (sel : Settings) (hnot : ¬Alike app serial) :
    ((mirror app).opened env serial sel).config.rcConfig ≠
      (app.rowSession env.base sel serial).cfg := by
  intro heq
  have haddr := congrArg RcConfig.tcpAddr heq
  have hport := congrArg RcConfig.tcpDevicePort heq
  simp only [SessionConfig.rcConfig] at haddr hport
  unfold Alike at hnot
  cases had : app.agentDev serial with
  | some ad =>
    rw [had] at hnot
    obtain ⟨hpos, hcolon⟩ := Classical.not_imp.mp hnot
    obtain ⟨hgiven, hzero⟩ := rowSession_given env sel (Gtk.rowAddr_agent had hpos)
      (not_not.mp hcolon)
    rcases opened_stream_config env sel had hpos with hnone | hdev
    · rw [hnone, hgiven] at haddr
      cases haddr
    · rw [hport, hzero] at hdev
      exact absurd hdev (Int.lt_irrefl 0)
  | none =>
    rw [had] at hnot
    cases hhost : wirelessHost serial with
    | none => exact hnot fun host h => by rw [hhost] at h; cases h
    | some host =>
      have hrow := rowAddr_host had
      rw [opened_wireless_config sel had hhost] at haddr
      rw [hhost] at hrow
      by_cases hlen : host.length < 128
      · rw [Option.filter, if_pos (decide_eq_true hlen)] at hrow
        have hcolon : ':' ∈ host := by
          by_contra hc
          exact hnot fun h hh => by
            obtain rfl := Option.some.inj (hhost.symm.trans hh)
            exact ⟨hc, hlen⟩
        rw [(rowSession_given env sel hrow hcolon).1] at haddr
        have hlength := congrArg List.length (Option.some.inj haddr)
        rw [address, List.length_append, List.length_cons] at hlength
        omega
      · rw [Option.filter, if_neg (by simpa using hlen)] at hrow
        rw [App.rowSession, hrow] at haddr
        cases haddr

/-! ### Over a run -/

def tear (s : PortSession) : PortSession := { s with torn := true }

/-- The window of a live session, among those of the manager. -/
def windowOf (sessions : List PortSession) (i : Nat) : Option Nat :=
  (sessions[i]?.filter live).map fun _ => (sessions.take i).countP live

theorem filter_tear (sessions : List PortSession) (i : Nat) :
    (sessions.modify i tear).filter live =
      (windowOf sessions i).elim (sessions.filter live) (sessions.filter live).eraseIdx := by
  induction sessions generalizing i with
  | nil => simp [windowOf]
  | cons s rest ih =>
    cases i with
    | zero =>
      cases htorn : s.torn <;> simp [windowOf, live, tear, htorn, Option.filter]
    | succ i =>
      have hrest := ih i
      unfold windowOf at hrest ⊢
      rw [List.modify_succ_cons, List.getElem?_cons_succ, List.take_succ_cons]
      cases htorn : s.torn with
      | true =>
        have hdead : live s = false := by rw [live, htorn]; rfl
        simp only [List.filter_cons, hdead, List.countP_cons, Bool.false_eq_true, if_false,
          Nat.add_zero]
        exact hrest
      | false =>
        have hlive : live s = true := by rw [live, htorn]; rfl
        simp only [List.filter_cons, hlive, List.countP_cons, if_true]
        rw [hrest]
        cases rest[i]?.filter live with
        | none => rfl
        | some t => rfl

/-- What the manager does when the GTK front end takes a step. -/
def move (app : App) : UiAct → Option ManagerAct
  | .activate serial sel created => if created then some (.press serial sel) else none
  | .register ads => some (.register ads)
  | .close i => (windowOf app.sessions i).map .close

theorem mirror_register (ads : List Gtk.AgentDev) (app : App) :
    mirror (ads.foldl App.register app) = ads.foldl SessionManager.register (mirror app) := by
  induction ads generalizing app with
  | nil => rfl
  | cons ad ads ih =>
    rw [List.foldl_cons, List.foldl_cons, ih]
    rfl

theorem mirror_close (app : App) (i : Nat) :
    mirror { app with sessions := app.sessions.modify i tear } =
      (windowOf app.sessions i).elim (mirror app) fun j =>
        { mirror app with controllers := (mirror app).controllers.eraseIdx j } := by
  rw [mirror, filter_tear]
  cases windowOf app.sessions i with
  | none => rfl
  | some j =>
    simp only [Option.elim_some, mirror]
    rw [List.eraseIdx_map]

theorem windowOf_lt {i j : Nat} (h : windowOf app.sessions i = some j) :
    j < (mirror app).controllers.length := by
  obtain ⟨s, hs, rfl⟩ := Option.map_eq_some_iff.mp h
  obtain ⟨hget, hlive⟩ := Option.filter_eq_some_iff.mp hs
  obtain ⟨hi, hget⟩ := List.getElem?_eq_some_iff.mp hget
  rw [mirror, List.length_map, ← List.countP_eq_length_filter]
  calc (app.sessions.take i).countP live
      < (app.sessions.take (i + 1)).countP live := by
        rw [List.take_add_one, List.countP_append, List.getElem?_eq_getElem hi, hget]
        simp [hlive]
    _ ≤ app.sessions.countP live := (List.take_sublist _ _).countP_le

/-- As long as the front ends open every device alike, the manager mirrors the GTK one. -/
def mirrors (env : Environment) :
    Refinement ((uiLts env.base).only ActsAlike) (managerLts env) where
  abs := mirror
  move := move
  init := rfl
  quiet app act app' hstep hmove := by
    obtain ⟨halike, hstep⟩ := Option.ite_none_right_eq_some.mp hstep
    cases act with
    | activate serial sel created =>
      rw [move, if_pos halike.1] at hmove
      cases hmove
    | register ads => cases hmove
    | close i =>
      obtain rfl := Option.some.inj hstep
      exact (mirror_close app i).trans (by rw [Option.map_eq_none_iff.mp hmove]; rfl)
  step app act app' b hstep hmove := by
    obtain ⟨halike, hstep⟩ := Option.ite_none_right_eq_some.mp hstep
    cases act with
    | activate serial sel created =>
      obtain ⟨rfl, halike⟩ := halike
      obtain rfl := Option.some.inj hmove
      obtain rfl := Option.some.inj hstep
      have hlive : live (app.rowSession env.base sel serial) = true := by
        rw [live, (@Gtk.rowSession_of env.base app sel serial).1]
        rfl
      show some _ = some _
      rw [opened_mirror sel halike, if_pos rfl]
      simp only [mirror, List.filter_cons, hlive, if_true, List.map_cons]
    | register ads =>
      obtain rfl := Option.some.inj hmove
      obtain rfl := Option.some.inj hstep
      exact congrArg some (mirror_register ads app).symm
    | close i =>
      obtain ⟨j, hj, rfl⟩ := Option.map_eq_some_iff.mp hmove
      obtain rfl := Option.some.inj hstep
      refine (if_pos (windowOf_lt hj)).trans (congrArg some ?_)
      exact ((mirror_close app i).trans (by rw [hj]; rfl)).symm

/-- A session is one of a `SessionConfig`. -/
def Plain (app : App) : Prop := ∀ s ∈ app.sessions, (configOf s.cfg).rcConfig = s.cfg

theorem Plain.step {app' : App} {act : UiAct} (h : Plain app)
    (hstep : uiStep env.base app act = some app') : Plain app' := by
  cases act with
  | activate serial sel created =>
    obtain rfl := Option.some.inj hstep
    cases created with
    | false => exact h
    | true => exact List.forall_mem_cons.mpr ⟨newSession_config env sel _ _ _ _, h⟩
  | register ads =>
    obtain rfl := Option.some.inj hstep
    intro s hs
    rw [Gtk.foldl_register_sessions] at hs
    exact h s hs
  | close i =>
    obtain rfl := Option.some.inj hstep
    intro s hs
    obtain ⟨j, hj⟩ := List.mem_iff_getElem?.mp hs
    simp only [List.getElem?_modify] at hj
    obtain ⟨t, ht, rfl⟩ := Option.map_eq_some_iff.mp hj
    have hplain := h t (List.mem_of_getElem? ht)
    split <;> exact hplain

/-- **The front ends agree.** As long as devices are only opened where `Alike` holds, a run
of the Swift front end mirrors that of the GTK one: the live sessions are the same, on
the same ports, with the same `rc_config`. The next device opened gets the same one too,
exactly where `Alike` holds. -/
theorem swift_mirrors (env : Environment) {acts : List UiAct} {app : App}
    (hrun : (uiLts env.base).run (uiLts env.base).init acts = some app)
    (halike : (uiLts env.base).Meets ActsAlike (uiLts env.base).init acts) :
    (∃ macts, (managerLts env).run (managerLts env).init macts = some (mirror app)) ∧
      (mirror app).controllers.map (·.config.rcConfig) =
        (app.sessions.filter live).map PortSession.cfg ∧
      ∀ serial sel, ((mirror app).opened env serial sel).config.rcConfig =
        (app.rowSession env.base sel serial).cfg ↔ Alike app serial := by
  have hplain : Plain app := Lts.invariant (fun _ _ _ hs hstep => hs.step hstep)
    (fun s hs => absurd hs List.not_mem_nil) hrun
  refine ⟨?_, ?_, fun serial sel => ⟨fun heq => ?_, fun halike => ?_⟩⟩
  · obtain ⟨macts, hmacts, -⟩ := (mirrors env).run (D := fun _ _ => True) (C := fun _ _ => True)
      (fun _ _ _ _ _ => trivial) (Lts.meets_true _ acts) (Lts.run_only halike hrun)
    exact ⟨macts, hmacts⟩
  · rw [mirror, List.map_map]
    exact List.map_congr_left fun s hs => hplain s (List.mem_of_mem_filter hs)
  · by_contra hnot
    exact opened_differs sel hnot heq
  · rw [opened_mirror sel halike]
    exact newSession_config env sel _ _ _ _

def plainEnv : Environment := ⟨0, 8000000, 60, true, false⟩

/-- A device of an agent twice and a wireless one, of which the first is closed. -/
def plainRun : List UiAct :=
  [.register [⟨"10.0.0.2".toList, "10.0.0.2:15553".toList, 27183⟩],
    .activate "10.0.0.2:15553".toList Gtk.plainSettings true,
    .activate "10.0.0.9:5555".toList Gtk.plainSettings true,
    .activate "10.0.0.2:15553".toList Gtk.plainSettings true, .close 2]

theorem swift_mirrors_plain : ∃ app,
    (uiLts plainEnv.base).run (uiLts plainEnv.base).init plainRun = some app ∧
      (∃ macts, (managerLts plainEnv).run (managerLts plainEnv).init macts = some (mirror app)) ∧
      (mirror app).controllers.map (·.config.tcpAddr) =
        [some "10.0.0.2:27184".toList, some "10.0.0.9:27183".toList] := by
  have hruns : ((uiLts plainEnv.base).run (uiLts plainEnv.base).init plainRun).any
      (fun app => (mirror app).controllers.map (·.config.tcpAddr) =
        [some "10.0.0.2:27184".toList, some "10.0.0.9:27183".toList]) = true := by decide +kernel
  obtain ⟨app, hrun, haddrs⟩ := (Option.any_eq_true _ _).mp hruns
  exact ⟨app, hrun, (swift_mirrors plainEnv hrun (by decide +kernel)).1, of_decide_eq_true haddrs⟩

end RigControl.Swift
