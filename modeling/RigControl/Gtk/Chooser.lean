import RigControl.Gtk.Session
import RigControl.Lib.Lts

/-!
# The chooser, and the ports in the device

`chooser.c` and the sessions on the UI thread: a row is activated, a scan adds devices
to `agent_devs`, a window is closed. A session over an agent takes its port in the
device from the device's stream ports, a wireless one from the ports of all sessions.
A serial that comes into `agent_devs` goes over from the one to the other while its
sessions live, and then both may give out the same port of the same device.
`ports_apart_iff` says in which situations a new session gets a port twice.
-/

namespace RigControl.Gtk

open RigControl.Lib RigControl.Core

structure App where
  agentDevs : List AgentDev
  /-- The newest first. -/
  sessions : List PortSession
  deriving DecidableEq, Repr

/-- `g_hash_table_lookup`. -/
def App.agentDev (app : App) (serial : CString) : Option AgentDev :=
  app.agentDevs.find? fun ad => ad.serial = serial

/-- `g_hash_table_replace`. -/
def App.register (app : App) (ad : AgentDev) : App :=
  { app with agentDevs := ad :: app.agentDevs.filter fun old => old.serial ≠ ad.serial }

/-- The address `on_row_activated` hands to `session_new`. -/
def App.rowAddr (app : App) (serial : CString) : Option CString :=
  match app.agentDev serial with
  | some ad => if 0 < ad.streamBase then some ad.host else none
  | none =>
    if serial.contains ':' then
      match splitAtColon serial with
      | some (host, _) => if 0 < host.length ∧ host.length < 128 then some host else none
      | none => none
    else none

variable (base : Base)

/-- The session a row opens. -/
def App.rowSession (app : App) (sel : Settings) (serial : CString) : PortSession :=
  newSession base sel app.sessions (app.agentDev serial) (some serial) (app.rowAddr serial)

inductive UiAct where
  /-- `on_row_activated`; `created` is whether `rc_client_create` succeeds. -/
  | activate (serial : CString) (sel : Settings) (created : Bool)
  /-- `auto_probe_done` or `agent_scan_done`. -/
  | register (ads : List AgentDev)
  /-- A window is destroyed: `session_teardown`. -/
  | close (i : Nat)
  deriving DecidableEq

def uiStep (app : App) : UiAct → Option App
  | .activate serial sel created =>
    some (if created then
      { app with sessions := app.rowSession base sel serial :: app.sessions } else app)
  | .register ads => some (ads.foldl App.register app)
  | .close i =>
    some { app with sessions := app.sessions.modify i fun s => { s with torn := true } }

def uiLts : Lts App UiAct := { init := ⟨[], []⟩, step := uiStep base }

/-! ## Sessions on one port -/

/-- What `parse_addr` reads where a port was written: a number that is no `int` is cut to
one, and what is no port then is the default. -/
def readPort (port : Int) : Int := if toInt32 port ≤ 0 then rcDefaultTcpPort else toInt32 port

/-- A live session of the device. -/
def PortSession.Of (s : PortSession) (serial : CString) : Prop :=
  s.torn = false ∧ s.serialOwned = some serial

def PortSession.Clash (s t : PortSession) : Prop :=
  ∃ serial port, s.Of serial ∧ t.Of serial ∧ s.listenPort = some port ∧ t.listenPort = some port

/-- No two live sessions of a device listen on the same port of it. -/
def App.Apart (app : App) : Prop := app.sessions.Pairwise fun s t => ¬s.Clash t

/-- What a row activated in this state leads to a second session on a port: the device
has gone over from one way of getting a port to another, and a live session of it still
has, the old way, the port that is next the new way. -/
inductive App.Crossed (app : App) (serial : CString) : Prop
  /-- Over the agent: `k` is the first stream port no live session of the device has. -/
  | stream (ad : AgentDev) (k : Nat) (t : PortSession) :
      app.agentDev serial = some ad → 0 < ad.streamBase → ':' ∉ ad.host → k < streamCount →
      (∀ j < k, ∃ s ∈ app.sessions, s.Of serial ∧ s.streamK = (j : Nat)) →
      (∀ s ∈ app.sessions, s.Of serial → s.streamK ≠ k) →
      t ∈ app.sessions → t.Of serial → t.streamK < 0 → t.listenPort = some (rcLanBasePort + k) →
      Crossed app serial
  /-- Wireless: `i` is the first port from the base on that no live session has. Two of
  these ports are read as one only where they are no `int`. -/
  | lan (host port : CString) (i : Nat) (t : PortSession) :
      app.agentDev serial = none → splitAtColon serial = some (host, port) → 0 < host.length →
      host.length < 128 → ':' ∉ host →
      (∀ j < i, ∃ s ∈ app.sessions, s.torn = false ∧ s.lanPort = rcLanBasePort + (j : Nat)) →
      (∀ s ∈ app.sessions, s.torn = false → s.lanPort ≠ rcLanBasePort + i) →
      t ∈ app.sessions → t.Of serial →
      t.lanPort = 0 ∨ 2 ^ 31 ≤ t.lanPort ∨ 2 ^ 31 ≤ rcLanBasePort + i →
      t.listenPort = some (readPort (rcLanBasePort + i)) → Crossed app serial
  /-- The address of the host has a port of its own. -/
  | given (addr host : CString) (port : Int) (t : PortSession) :
      app.rowAddr serial = some addr → ':' ∈ addr → parseAddr (some addr) = some (host, port) →
      t ∈ app.sessions → t.Of serial → t.listenPort = some port → Crossed app serial

/-- No session is opened where the port is taken. -/
def NotCrossed (app : App) : UiAct → Prop
  | .activate serial _ created => created = true → ¬app.Crossed serial
  | _ => True

/-! ## How a session gets its port -/

/-- What is known of a session by its fields. -/
inductive PortSession.Made (s : PortSession) : Prop
  | stream (k : Nat) : k < streamCount → s.streamK = k → s.lanPort = 0 →
      s.listenPort = some (rcLanBasePort + k) → s.Made
  | lan (i : Nat) : s.streamK = -1 → s.lanPort = rcLanBasePort + i →
      s.listenPort = some (readPort (rcLanBasePort + i)) → s.Made
  | other : s.streamK = -1 → s.lanPort = 0 → s.Made

theorem parseAddr_address {host : CString} (hlen : 0 < host.length ∧ host.length < 128)
    (port : Int) : parseAddr (some (address host port)) = some (host, readPort port) := by
  have hsplit := splitAtColon_append host (colon_not_mem_decimal port)
  have hread : atoi32 (decimal port) = toInt32 port := by
    have hend := @atoi_decimal port [] (by simp)
    rw [atoi32, ← List.append_nil (decimal port), hend]
  have hfits : ¬(host.length = 0 ∨ 128 ≤ host.length) := by omega
  unfold parseAddr address
  simp only [Option.getD_some]
  split
  · rename_i hnil
    simp at hnil
  · simp only [hsplit, if_neg hfits, hread]
    rfl

theorem readPort_eq {port : Int} (hlo : 0 < port) (hhi : port < 2 ^ 31) : readPort port = port := by
  unfold readPort
  rw [toInt32_eq (by omega) hhi, if_neg (by omega)]

variable {base}

/-- The ways a session is opened: over the tunnel, at once or because all stream ports
of the agent are used; on a stream port; on a port of all sessions; on the port in the
address. -/
inductive Opened (app : App) (serial : CString) (s : PortSession) : Prop
  | tunnel : app.rowAddr serial = none → s.streamK = -1 → s.lanPort = 0 → s.listenPort = none →
      Opened app serial s
  | full (ad : AgentDev) : app.agentDev serial = some ad → app.rowAddr serial = some ad.host →
      ':' ∉ ad.host → allocStreamK (app.sessions.map PortSession.use) (some serial) = none →
      s.streamK = -1 → s.lanPort = 0 → s.listenPort = none → Opened app serial s
  | stream (ad : AgentDev) (k : Nat) : app.agentDev serial = some ad →
      app.rowAddr serial = some ad.host → 0 < ad.streamBase → ':' ∉ ad.host →
      allocStreamK (app.sessions.map PortSession.use) (some serial) = some k → s.streamK = k →
      s.lanPort = 0 → s.listenPort = some (rcLanBasePort + k) → Opened app serial s
  | lan (host port : CString) (i : Nat) : app.agentDev serial = none →
      app.rowAddr serial = some host → splitAtColon serial = some (host, port) →
      0 < host.length → host.length < 128 → ':' ∉ host → lanPortUsed app.sessions (rcLanBasePort + i) = false →
      (∀ j < i, lanPortUsed app.sessions (rcLanBasePort + (j : Nat)) = true) →
      s.streamK = -1 → s.lanPort = rcLanBasePort + i →
      s.listenPort = some (readPort (rcLanBasePort + i)) → Opened app serial s
  | given (addr : CString) : app.rowAddr serial = some addr → ':' ∈ addr → s.streamK = -1 →
      s.lanPort = 0 → s.listenPort = (parseAddr (some addr)).map (·.2) → Opened app serial s

theorem rowSession_of (app : App) (sel : Settings) (serial : CString) :
    (app.rowSession base sel serial).Of serial := by
  unfold App.rowSession newSession PortSession.Of
  split
  · exact ⟨rfl, rfl⟩
  · simp only
    split
    · exact ⟨rfl, rfl⟩
    · split
      · split <;> exact ⟨rfl, rfl⟩
      · exact ⟨rfl, rfl⟩

theorem rowAddr_eq_some {app : App} {serial addr : CString} (h : app.rowAddr serial = some addr) :
    (∃ ad, app.agentDev serial = some ad ∧ 0 < ad.streamBase ∧ ad.host = addr) ∨
    (app.agentDev serial = none ∧ ∃ port, splitAtColon serial = some (addr, port) ∧
      0 < addr.length ∧ addr.length < 128) := by
  unfold App.rowAddr at h
  split at h
  · rename_i ad had
    split at h
    · rename_i hpos
      exact .inl ⟨ad, had, hpos, Option.some.inj h⟩
    · cases h
  · rename_i hnone
    split at h
    · split at h
      · rename_i host port hsplit
        split at h
        · rename_i hlen
          obtain rfl := Option.some.inj h
          exact .inr ⟨hnone, port, hsplit, hlen⟩
        · cases h
      · cases h
    · cases h

theorem listenPort_tcp {s : PortSession} (htcp : s.cfg.transport = .tcp) :
    s.listenPort = if 0 < s.cfg.tcpDevicePort then some s.cfg.tcpDevicePort
      else (parseAddr s.cfg.tcpAddr).map (·.2) := by
  simp only [PortSession.listenPort, htcp]

/-- No device port is set: the port is that of the address. -/
theorem listenPort_addr {s : PortSession} (htcp : s.cfg.transport = .tcp)
    (hdev : s.cfg.tcpDevicePort = base.cfg.tcpDevicePort) :
    s.listenPort = (parseAddr s.cfg.tcpAddr).map (·.2) := by
  rw [listenPort_tcp htcp, hdev, base.tcpDevicePort]
  rfl

theorem rowSession_opened (app : App) (sel : Settings) (serial : CString) :
    Opened app serial (app.rowSession base sel serial) := by
  unfold App.rowSession
  cases haddr : app.rowAddr serial with
  | none =>
    refine .tunnel haddr rfl rfl ?_
    simp only [newSession, PortSession.listenPort, base.transport]
  | some addr =>
    by_cases hcolon : ':' ∈ addr
    · have hcontains : addr.contains ':' = true := by simpa using hcolon
      simp only [newSession, hcontains, if_true]
      exact .given addr haddr hcolon rfl rfl (listenPort_addr rfl rfl)
    · have hcontains : addr.contains ':' = false := by simpa using hcolon
      rcases rowAddr_eq_some haddr with ⟨ad, had, hpos, rfl⟩ | ⟨hnone, port, hsplit, hlen, hlen'⟩
      · have hfilter : (some ad).filter (fun ad => decide (0 < ad.streamBase)) = some ad := by
          simp [Option.filter, hpos]
        cases hk : allocStreamK (app.sessions.map PortSession.use) (some serial) with
        | none =>
          simp only [newSession, hcontains, Bool.false_eq_true, if_false, had, hfilter, sessionAgent,
            hpos, hk, if_true, Option.map_none]
          exact .full ad had haddr hcolon hk rfl rfl rfl
        | some k =>
          simp only [newSession, hcontains, Bool.false_eq_true, if_false, had, hfilter, sessionAgent,
            hpos, hk, if_true, Option.map_some]
          refine .stream ad k had haddr hpos hcolon hk rfl rfl ?_
          rw [listenPort_tcp rfl]
          exact if_pos (by show (0 : Int) < 27183 + k; omega)
      · obtain ⟨i, hport, hfree, hused⟩ := allocLanPort_eq app.sessions
        simp only [newSession, hcontains, Bool.false_eq_true, if_false, hnone, Option.filter_none]
        refine .lan addr port i hnone haddr hsplit hlen hlen' hcolon hfree hused rfl hport ?_
        rw [listenPort_addr rfl rfl, hport, parseAddr_address ⟨hlen, hlen'⟩]
        rfl

/-! ## When the port is taken -/

theorem Opened.made {app : App} {serial : CString} {s : PortSession} (h : Opened app serial s) :
    s.Made := by
  cases h with
  | tunnel _ hk hlan _ => exact .other hk hlan
  | full _ _ _ _ _ hk hlan _ => exact .other hk hlan
  | stream ad k _ _ _ _ halloc hk hlan hport =>
    exact .stream k (allocStreamK_eq_some.mp halloc).1 hk hlan hport
  | lan host port i _ _ _ _ _ _ _ _ hk hlan hport => exact .lan i hk hlan hport
  | given addr _ _ hk hlan _ => exact .other hk hlan

/-- A live session of the device that is on no stream port of an agent, by its port. -/
theorem PortSession.Made.neg_streamK {t : PortSession} (h : t.Made) {k : Nat} (hne : t.streamK ≠ k)
    (hport : t.listenPort = some (rcLanBasePort + k)) : t.streamK < 0 := by
  cases h with
  | stream j _ hj _ hlisten =>
    rw [hlisten, Option.some.injEq] at hport
    omega
  | lan i hk _ _ => omega
  | other hk _ => omega

/-- A live session of the device that is on another of the ports of all sessions. -/
theorem PortSession.Made.other_lanPort {t : PortSession} (h : t.Made) {i : Nat}
    (hne : t.lanPort ≠ rcLanBasePort + i)
    (hport : t.listenPort = some (readPort (rcLanBasePort + i))) :
    t.lanPort = 0 ∨ 2 ^ 31 ≤ t.lanPort ∨ 2 ^ 31 ≤ rcLanBasePort + i := by
  cases h with
  | stream j _ _ hlan _ => exact .inl hlan
  | lan j _ hlan hlisten =>
    refine .inr ?_
    by_contra hsmall
    have hbase : 0 < rcLanBasePort := by decide
    have hread : readPort (rcLanBasePort + j) = readPort (rcLanBasePort + i) :=
      Option.some.inj (hlisten.symm.trans hport)
    rw [readPort_eq (by omega) (by omega), readPort_eq (by omega) (by omega)] at hread
    omega
  | other _ hlan => exact .inl hlan

theorem uses_any_iff {sessions : List PortSession} {serial : CString} {k : Nat} :
    ((sessions.map PortSession.use).any fun s => s.uses (some serial) k) = true ↔
      ∃ s ∈ sessions, s.Of serial ∧ s.streamK = k := by
  simp only [List.any_map, List.any_eq_true, Function.comp_apply, StreamUse.uses, PortSession.use,
    PortSession.Of, Bool.and_eq_true, Bool.not_eq_true']
  constructor
  · rintro ⟨s, hs, ⟨⟨htorn, hk⟩, -⟩, hserial⟩
    exact ⟨s, hs, ⟨htorn, of_decide_eq_true hserial⟩, of_decide_eq_true hk⟩
  · rintro ⟨s, hs, ⟨htorn, hserial⟩, hk⟩
    exact ⟨s, hs, ⟨⟨htorn, decide_eq_true hk⟩, by rw [hserial]; rfl⟩, decide_eq_true hserial⟩

theorem allocStreamK_iff {sessions : List PortSession} {serial : CString} {k : Nat} :
    allocStreamK (sessions.map PortSession.use) (some serial) = some k ↔ k < streamCount ∧
      (∀ s ∈ sessions, s.Of serial → s.streamK ≠ k) ∧
      ∀ j < k, ∃ s ∈ sessions, s.Of serial ∧ s.streamK = (j : Nat) := by
  rw [allocStreamK_eq_some]
  refine and_congr_right fun _ => and_congr ?_ (forall₂_congr fun j _ => uses_any_iff)
  rw [← Bool.not_eq_true, uses_any_iff]
  constructor
  · exact fun hnone s hs hof hk => hnone ⟨s, hs, hof, hk⟩
  · rintro hall ⟨s, hs, hof, hk⟩
    exact hall s hs hof hk

/-- Only one port is the first that is free. -/
theorem first_unique {used : Nat → Prop} {i j : Nat} (hi : ¬used i) (hi' : ∀ m < i, used m)
    (hj : ¬used j) (hj' : ∀ m < j, used m) : i = j := by
  rcases Nat.lt_trichotomy i j with hlt | heq | hgt
  · exact absurd (hj' i hlt) hi
  · exact heq
  · exact absurd (hi' j hgt) hj

theorem rowAddr_agent {app : App} {serial : CString} {ad : AgentDev}
    (had : app.agentDev serial = some ad) (hpos : 0 < ad.streamBase) :
    app.rowAddr serial = some ad.host := by
  simp only [App.rowAddr, had, if_pos hpos]

theorem rowAddr_wireless {app : App} {serial host port : CString}
    (hnone : app.agentDev serial = none) (hsplit : splitAtColon serial = some (host, port))
    (hlen : 0 < host.length) (hlen' : host.length < 128) : app.rowAddr serial = some host := by
  have hcolon : serial.contains ':' = true := by
    simpa using colon_mem_of_splitAtColon hsplit
  simp only [App.rowAddr, hnone, hcolon, hsplit, if_true, if_pos (And.intro hlen hlen')]

/-- The new session has the port of a live one exactly where the condition says. -/
theorem crossed_iff {app : App} (hmade : ∀ t ∈ app.sessions, t.Made) {serial : CString}
    {s : PortSession} (h : Opened app serial s) :
    app.Crossed serial ↔
      ∃ t ∈ app.sessions, t.Of serial ∧ ∃ port, s.listenPort = some port ∧
        t.listenPort = some port := by
  constructor
  · intro hcrossed
    cases hcrossed with
    | stream ad k t had hpos hcolon hk hused hfree ht hof hneg hport =>
      have haddr := rowAddr_agent had hpos
      have halloc := allocStreamK_iff.mpr ⟨hk, hfree, hused⟩
      cases h with
      | tunnel hrow _ _ _ => simp [haddr] at hrow
      | full _ _ _ _ hnone _ _ _ => simp [halloc] at hnone
      | stream _ j _ _ _ _ halloc' _ _ hlisten =>
        obtain rfl : k = j := Option.some.inj (halloc.symm.trans halloc')
        exact ⟨t, ht, hof, _, hlisten, hport⟩
      | lan _ _ _ hnone _ _ _ _ _ _ _ _ _ _ => simp [had] at hnone
      | given addr hrow hmem _ _ _ =>
        obtain rfl : ad.host = addr := Option.some.inj (haddr.symm.trans hrow)
        exact absurd hmem hcolon
    | lan host port i t hnone hsplit hlen hlen' hcolon hused hfree ht hof _ hport =>
      have haddr := rowAddr_wireless hnone hsplit hlen hlen'
      cases h with
      | tunnel hrow _ _ _ => simp [haddr] at hrow
      | full _ had _ _ _ _ _ _ => simp [hnone] at had
      | stream _ _ had _ _ _ _ _ _ _ => simp [hnone] at had
      | lan _ _ j _ _ _ _ _ _ hfree' hused' _ _ hlisten =>
        obtain rfl : i = j := by
          refine @first_unique (fun m => lanPortUsed app.sessions (rcLanBasePort + (m : Nat)) = true)
            i j ?_ (fun m hm => lanPortUsed_iff.mpr (hused m hm)) (by simp [hfree']) hused'
          intro hi
          obtain ⟨s, hs, htorn, hlan⟩ := lanPortUsed_iff.mp hi
          exact hfree s hs htorn hlan
        exact ⟨t, ht, hof, _, hlisten, hport⟩
      | given addr hrow hmem _ _ _ =>
        obtain rfl : host = addr := Option.some.inj (haddr.symm.trans hrow)
        exact absurd hmem hcolon
    | given addr host port t hrow hmem hparse ht hof hport =>
      cases h with
      | tunnel hrow' _ _ _ => simp [hrow] at hrow'
      | full ad _ hrow' hcolon _ _ _ _ =>
        obtain rfl : addr = ad.host := Option.some.inj (hrow.symm.trans hrow')
        exact absurd hmem hcolon
      | stream ad _ _ hrow' _ hcolon _ _ _ _ =>
        obtain rfl : addr = ad.host := Option.some.inj (hrow.symm.trans hrow')
        exact absurd hmem hcolon
      | lan host' _ _ _ hrow' _ _ _ hcolon _ _ _ _ _ =>
        obtain rfl : addr = host' := Option.some.inj (hrow.symm.trans hrow')
        exact absurd hmem hcolon
      | given addr' hrow' _ _ _ hlisten =>
        obtain rfl : addr = addr' := Option.some.inj (hrow.symm.trans hrow')
        rw [hparse] at hlisten
        exact ⟨t, ht, hof, port, hlisten, hport⟩
  · rintro ⟨t, ht, hof, port, hs, hport⟩
    cases h with
    | tunnel _ _ _ hlisten => simp [hlisten] at hs
    | full _ _ _ _ _ _ _ hlisten => simp [hlisten] at hs
    | stream ad k had _ hpos hcolon halloc _ _ hlisten =>
      obtain rfl : rcLanBasePort + (k : Int) = port := Option.some.inj (hlisten.symm.trans hs)
      obtain ⟨hk, hfree, hused⟩ := allocStreamK_iff.mp halloc
      exact .stream ad k t had hpos hcolon hk hused hfree ht hof
        ((hmade t ht).neg_streamK (hfree t ht hof) hport) hport
    | lan host p i hnone _ hsplit hlen hlen' hcolon hfree hused _ _ hlisten =>
      obtain rfl : readPort (rcLanBasePort + (i : Int)) = port := Option.some.inj (hlisten.symm.trans hs)
      have hnot : ∀ s ∈ app.sessions, s.torn = false → s.lanPort ≠ rcLanBasePort + i := by
        intro s hs' htorn hlan
        have husedi := lanPortUsed_iff.mpr ⟨s, hs', htorn, hlan⟩
        simp [hfree] at husedi
      exact .lan host p i t hnone hsplit hlen hlen' hcolon
        (fun j hj => lanPortUsed_iff.mp (hused j hj)) hnot ht hof
        ((hmade t ht).other_lanPort (hnot t ht hof.1) hport) hport
    | given addr hrow hmem _ _ hlisten =>
      rw [hlisten] at hs
      obtain ⟨x, hparse, rfl⟩ := Option.map_eq_some_iff.mp hs
      exact .given addr x.1 x.2 t hrow hmem hparse ht hof hport

/-! ## Runs -/

structure Kept (app : App) : Prop where
  made : ∀ s ∈ app.sessions, s.Made
  apart : app.Apart

theorem foldl_register_sessions (ads : List AgentDev) (app : App) :
    (ads.foldl App.register app).sessions = app.sessions := by
  induction ads generalizing app with
  | nil => rfl
  | cons ad ads ih => rw [List.foldl_cons, ih, App.register]

/-- A closed window takes nothing from the others. -/
theorem Kept.close {app : App} (h : Kept app) (i : Nat) :
    Kept { app with sessions := app.sessions.modify i fun s => { s with torn := true } } where
  made := by
    intro s hs
    obtain ⟨j, hj⟩ := List.mem_iff_getElem?.mp hs
    simp only [List.getElem?_modify] at hj
    obtain ⟨t, ht, rfl⟩ := Option.map_eq_some_iff.mp hj
    have hmade := h.made t (List.mem_of_getElem? ht)
    split
    · cases hmade with
      | stream k hk hstream hlan hport => exact .stream k hk hstream hlan hport
      | lan m hstream hlan hport => exact .lan m hstream hlan hport
      | other hstream hlan => exact .other hstream hlan
    · exact hmade
  apart := by
    refine List.pairwise_iff_getElem.mpr fun j k hj hk hjk => ?_
    have hold := List.pairwise_iff_getElem.mp h.apart j k (by simpa using hj) (by simpa using hk) hjk
    rintro ⟨serial, port, hs, ht, hport, hport'⟩
    simp only [List.getElem_modify] at hs ht hport hport'
    split at hs
    · cases hs.1
    · split at ht
      · cases ht.1
      · rename_i hij hik
        rw [if_neg hij] at hport
        rw [if_neg hik] at hport'
        exact hold ⟨serial, port, hs, ht, hport, hport'⟩

/-- A step keeps the ports apart exactly where it meets the condition. -/
theorem Kept.step_iff {app app' : App} (h : Kept app) {a : UiAct}
    (hstep : uiStep base app a = some app') :
    (∀ s ∈ app'.sessions, s.Made) ∧ (app'.Apart ↔ NotCrossed app a) := by
  cases a with
  | register ads =>
    obtain rfl := Option.some.inj hstep
    refine ⟨fun s hs => h.made s (by rwa [foldl_register_sessions] at hs), iff_of_true ?_ trivial⟩
    unfold App.Apart
    rw [foldl_register_sessions]
    exact h.apart
  | close i =>
    obtain rfl := Option.some.inj hstep
    exact ⟨(h.close i).made, iff_of_true (h.close i).apart trivial⟩
  | activate serial sel created =>
    obtain rfl := Option.some.inj hstep
    cases created with
    | false => exact ⟨h.made, iff_of_true h.apart (by intro hc; cases hc)⟩
    | true =>
      have hopened := @rowSession_opened base app sel serial
      have hof := @rowSession_of base app sel serial
      refine ⟨fun s hs => ?_, ?_⟩
      · rcases List.mem_cons.mp hs with rfl | hs
        · exact hopened.made
        · exact h.made s hs
      · have hiff := crossed_iff h.made hopened
        simp only [App.Apart, if_true, List.pairwise_cons, NotCrossed, forall_const]
        constructor
        · rintro ⟨hnew, -⟩ hcrossed
          obtain ⟨t, ht, htof, port, hs, hport⟩ := hiff.mp hcrossed
          exact hnew t ht ⟨serial, port, hof, htof, hs, hport⟩
        · refine fun hnot => ⟨fun t ht hclash => hnot ?_, h.apart⟩
          obtain ⟨serial', port, hsof, htof, hs, hport⟩ := hclash
          obtain rfl : serial = serial' := Option.some.inj (hof.2.symm.trans hsof.2)
          exact hiff.mpr ⟨t, ht, htof, port, hs, hport⟩

theorem kept_init : Kept (uiLts base).init :=
  ⟨fun s hs => (by cases hs), .nil⟩

/-- **A port in the device belongs to one session, as long as no device goes over.** For
every sequence of rows activated, devices registered and windows closed: in every state
on the way no two live sessions of a device listen on the same port of it, if and only
if no session is opened in one of the situations of `Crossed`. -/
theorem ports_apart_iff (base : Base) (as : List UiAct) :
    (∀ bs app, bs <+: as → (uiLts base).run (uiLts base).init bs = some app → app.Apart) ↔
      (uiLts base).Meets NotCrossed (uiLts base).init as := by
  constructor
  · have hgo : ∀ (as : List UiAct) (app : App), Kept app →
        (∀ bs app', bs <+: as → (uiLts base).run app bs = some app' → app'.Apart) →
        (uiLts base).Meets NotCrossed app as := by
      intro as
      induction as with
      | nil => exact fun _ _ _ => trivial
      | cons a as ih =>
        intro app hkept hall
        have hhead : ∀ app', uiStep base app a = some app' → app'.Apart := fun app' hstep =>
          hall [a] app' (List.prefix_append ..) (Lts.run_cons.mpr ⟨app', hstep, rfl⟩)
        obtain ⟨app', hstep⟩ : ∃ app', uiStep base app a = some app' := by
          cases a <;> exact ⟨_, rfl⟩
        refine ⟨(hkept.step_iff hstep).2.mp (hhead app' hstep), fun app'' hstep' => ?_⟩
        refine ih app'' ⟨(hkept.step_iff hstep').1, hhead app'' hstep'⟩ fun bs t hbs hrun => ?_
        exact hall (a :: bs) t (List.prefix_cons_inj a |>.mpr hbs)
          (Lts.run_cons.mpr ⟨app'', hstep', hrun⟩)
    exact hgo as _ kept_init
  · rintro hmeets bs app ⟨cs, rfl⟩ hrun
    refine (Lts.invariant_on (I := Kept) (fun s a s' hs hC hstep => ?_) kept_init
      hmeets.append.1 hrun).apart
    exact ⟨(hs.step_iff hstep).1, (hs.step_iff hstep).2.mpr hC⟩

def noEnv : Base where
  cfg := ⟨none, .usb, none, 0, 0, 8000000, 60, .h264, true, false⟩
  transport := rfl
  tcpDevicePort := rfl

def plainSettings : Settings := ⟨0, 8000000, false, true⟩

/-- A device that adb has at an address is opened; then the probe finds out that the
address is an agent's, and the device is opened again. -/
def probedRun : List UiAct :=
  [.activate "10.0.0.2:15553".toList plainSettings true,
    .register [⟨"10.0.0.2".toList, "10.0.0.2:15553".toList, 27183⟩],
    .activate "10.0.0.2:15553".toList plainSettings true]

/-- Both sessions are to listen on port 27183 of the device. -/
theorem ports_shared_probed :
    ¬∀ (base : Base) (as : List UiAct) (app : App),
      (uiLts base).run (uiLts base).init as = some app → app.Apart := by
  intro h
  have hlisten : ∃ s t, ∃ app, (uiLts noEnv).run (uiLts noEnv).init probedRun = some app ∧
      app.sessions = [s, t] ∧ s.torn = false ∧ t.torn = false ∧
      s.serialOwned = some "10.0.0.2:15553".toList ∧
      t.serialOwned = some "10.0.0.2:15553".toList ∧ s.listenPort = some 27183 ∧
      t.listenPort = some 27183 :=
    ⟨_, _, _, rfl, rfl, by decide, by decide, by decide, by decide, by decide, by decide⟩
  obtain ⟨s, t, app, hrun, hsessions, hs, ht, hserial, hserial', hport, hport'⟩ := hlisten
  have hapart := h noEnv probedRun app hrun
  rw [App.Apart, hsessions] at hapart
  exact (List.pairwise_pair.mp hapart) ⟨_, _, ⟨hs, hserial⟩, ⟨ht, hserial'⟩, hport, hport'⟩

end RigControl.Gtk
