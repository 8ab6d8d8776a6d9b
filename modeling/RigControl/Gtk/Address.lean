import RigControl.Gtk.Chooser

/-!
# The address of a session

The host of a wireless serial, or the agent's, goes from the chooser to `session_new`,
which puts a port behind it, and to `parse_addr` of the core, which takes both apart
again. A colon in what `session_new` is given means to it that there is a port already,
as in `RC_TCP_ADDR`; a host may have a colon too (`[fe80::1]`), and then no port is put
behind it. `tcp_addr_iff` says where the core gets the host and the port that were meant.
-/

namespace RigControl.Gtk

open RigControl.Lib RigControl.Core

/-- The port `session_new` has allocated, by the fields that keep it. -/
def PortSession.allocated (s : PortSession) (agentDev : Option AgentDev) : Option Int :=
  if 0 ≤ s.streamK then agentDev.map fun ad => ad.streamBase + s.streamK
  else if s.lanPort = 0 then none
  else some s.lanPort

/-- The host a session of the serial is for: the agent's, or that of the serial. -/
def App.sessionHost (app : App) (serial host : CString) : CString :=
  (app.agentDev serial).elim host AgentDev.host

/-- The stream port that is next for the serial: no live session of it has `k`, and each
before it is taken. -/
def App.NextStream (app : App) (serial : CString) (k : Nat) : Prop :=
  k < streamCount ∧ (∀ s ∈ app.sessions, s.Of serial → s.streamK ≠ k) ∧
    ∀ j < k, ∃ s ∈ app.sessions, s.Of serial ∧ s.streamK = (j : Nat)

/-- The core reads the host and the port that were meant. -/
def App.ReadBack (app : App) (serial host : CString) (s : PortSession) : Prop :=
  ∃ port, s.allocated (app.agentDev serial) = some port ∧
    parseAddr s.cfg.tcpAddr = some (app.sessionHost serial host, port) ∧ 1 ≤ port ∧ port ≤ 65535

/-- No colon in the host, and a port that is one: over an agent the next stream port, if
there is one, and for a wireless device one that no live session has. -/
def App.Addressable (app : App) (serial host : CString) : Prop :=
  match app.agentDev serial with
  | some ad => 0 < ad.streamBase → ':' ∉ ad.host ∧ ∀ k, app.NextStream serial k →
      0 < ad.host.length ∧ ad.host.length < 128 ∧ ad.streamBase + k ≤ 65535
  | none => ':' ∉ host ∧ ∃ port, rcLanBasePort ≤ port ∧ port ≤ 65535 ∧
      ∀ s ∈ app.sessions, s.torn = false → s.lanPort ≠ port

variable {base : Base} {app : App} {serial host : CString} {s : PortSession}

/-! ## What `session_new` makes of the host -/

/-- A session over TCP has the host as it is, where it has a colon, and else with a port
behind it. -/
theorem newSession_addr (sel : Settings) (ad : Option AgentDev) (addr : CString) :
    let s := newSession base sel app.sessions ad (some serial) (some addr)
    (':' ∈ addr ∧ s.cfg.transport = .tcp ∧ s.streamK = -1 ∧ s.lanPort = 0) ∨
    (':' ∉ addr ∧ ∃ dev, ad = some dev ∧ 0 < dev.streamBase ∧
      ((s.cfg.transport = .usb ∧ ∀ k, ¬app.NextStream serial k) ∨
        ∃ k, app.NextStream serial k ∧ s.cfg.transport = .tcp ∧ s.streamK = k ∧
          s.cfg.tcpAddr = some (address addr (dev.streamBase + k)))) ∨
    (':' ∉ addr ∧ (∀ dev, ad = some dev → dev.streamBase ≤ 0) ∧ s.cfg.transport = .tcp ∧
      s.streamK = -1 ∧ s.lanPort = allocLanPort app.sessions ∧
      s.cfg.tcpAddr = some (address addr (allocLanPort app.sessions))) := by
  dsimp only
  by_cases hcolon : ':' ∈ addr
  · refine .inl ⟨hcolon, ?_⟩
    simp [newSession, hcolon]
  cases hfilter : ad.filter fun ad => 0 < ad.streamBase with
  | none =>
    refine .inr (.inr ⟨hcolon, fun dev hdev => ?_, ?_⟩)
    · subst hdev
      by_contra hpos
      simp [Option.filter, Int.not_le.mp hpos] at hfilter
    · simp [newSession, hcolon, hfilter]
  | some dev =>
    obtain ⟨hdev, hpos⟩ := Option.filter_eq_some_iff.mp hfilter
    replace hpos : 0 < dev.streamBase := by simpa using hpos
    refine .inr (.inl ⟨hcolon, dev, hdev, hpos, ?_⟩)
    cases hk : allocStreamK (app.sessions.map PortSession.use) (some serial) with
    | none =>
      refine .inl ⟨by simp [newSession, hcolon, hfilter, sessionAgent, hpos, hk], fun k hnext => ?_⟩
      rw [allocStreamK_iff.mpr hnext] at hk
      cases hk
    | some k =>
      refine .inr ⟨k, allocStreamK_iff.mp hk, ?_⟩
      simp [newSession, hcolon, hfilter, sessionAgent, hpos, hk]

/-- There is only one next stream port. -/
theorem App.NextStream.unique {k k' : Nat} (h : app.NextStream serial k)
    (h' : app.NextStream serial k') : k = k' := by
  have hk := allocStreamK_iff.mpr h
  rw [allocStreamK_iff.mpr h'] at hk
  exact (Option.some.inj hk).symm

/-- `alloc_lan_port` stays in range as long as a port of the range is free. -/
theorem allocLanPort_le_iff {bound : Int} (sessions : List PortSession) :
    allocLanPort sessions ≤ bound ↔ ∃ port, rcLanBasePort ≤ port ∧ port ≤ bound ∧
      ∀ s ∈ sessions, s.torn = false → s.lanPort ≠ port := by
  obtain ⟨i, hport, hfree, hused⟩ := allocLanPort_eq sessions
  constructor
  · intro hle
    refine ⟨rcLanBasePort + i, by omega, hport ▸ hle, fun s hs hlive hlan => ?_⟩
    rw [lanPortUsed_iff.mpr ⟨s, hs, hlive, hlan⟩] at hfree
    cases hfree
  · rintro ⟨port, hlo, hhi, hnone⟩
    rw [hport]
    by_contra hgt
    -- then `port` is before the first that is free
    obtain ⟨s, hs, hlive, hlan⟩ := lanPortUsed_iff.mp (hused (port - rcLanBasePort).toNat (by omega))
    exact hnone s hs hlive (by omega)

theorem allocLanPort_pos (sessions : List PortSession) : 0 < allocLanPort sessions := by
  obtain ⟨i, hport, -⟩ := allocLanPort_eq sessions
  rw [hport, rcLanBasePort]
  omega

/-- A host that is empty or too long is no host for the core. -/
theorem parseAddr_address_iff {addr : CString} {port : Int} (hpos : 0 < port) (hint : port < 2 ^ 31) :
    parseAddr (some (address addr port)) = some (addr, port) ↔
      0 < addr.length ∧ addr.length < 128 := by
  refine ⟨fun h => ?_, fun hlen => by rw [parseAddr_address hlen, readPort_eq hpos hint]⟩
  by_contra hlen
  have hbad : addr.length = 0 ∨ 128 ≤ addr.length := by omega
  have hsplit := splitAtColon_append addr (colon_not_mem_decimal port)
  unfold parseAddr address at h
  simp only [Option.getD_some] at h
  split at h
  · cases h
  · simp only [hsplit, if_pos hbad] at h
    cases h

/-! ## There and back -/

theorem rowSession_addr {sel : Settings} {addr : CString} (h : app.rowAddr serial = some addr) :
    app.rowSession base sel serial =
      newSession base sel app.sessions (app.agentDev serial) (some serial) (some addr) := by
  rw [App.rowSession, h]

/-- A session through the adb tunnel has no address. -/
theorem rowSession_usb {sel : Settings} (h : app.rowAddr serial = none) :
    (app.rowSession base sel serial).cfg.transport = .usb := by
  rw [App.rowSession, h]
  exact base.transport

/-- **The core gets the host and the port that were meant**, for every set of sessions and
every registry, exactly where the host handed over has no colon (and the agent's is a host
for the core) and there is a port up to 65535 to allocate. -/
theorem tcp_addr_iff (base : Base) (app : App) (sel : Settings) {host portText : CString}
    (hcolon : ':' ∉ portText) (hlen : 0 < host.length ∧ host.length < 64) :
    let serial := host ++ ':' :: portText
    let s := app.rowSession base sel serial
    (s.cfg.transport = .tcp → app.ReadBack serial host s) ↔ app.Addressable serial host := by
  intro serial s
  have hsplit : splitAtColon serial = some (host, portText) := splitAtColon_append host hcolon
  cases had : app.agentDev serial with
  | some ad =>
    simp only [App.Addressable, App.ReadBack, App.sessionHost, had, Option.elim_some]
    by_cases hpos : 0 < ad.streamBase
    · have haddr : app.rowAddr serial = some ad.host := rowAddr_agent had hpos
      have hs : s = newSession base sel app.sessions (some ad) (some serial) (some ad.host) :=
        had ▸ rowSession_addr haddr
      obtain ⟨hin, htcp, hk, hlan⟩ | ⟨hout, dev, hdev, -, hcase⟩ | ⟨-, hnone, -⟩ :=
        hs ▸ @newSession_addr base app serial sel (some ad) ad.host
      · refine ⟨fun h => ?_, fun h => absurd hin (h hpos).1⟩
        obtain ⟨port, hport, -⟩ := h htcp
        simp [PortSession.allocated, hk, hlan] at hport
      · cases hdev
        rcases hcase with ⟨husb, hnone⟩ | ⟨k, hnext, htcp, hk, htext⟩
        · refine ⟨fun _ _ => ⟨hout, fun k hk => absurd hk (hnone k)⟩, fun _ htcp => ?_⟩
          rw [husb] at htcp
          cases htcp
        · have hport : s.allocated (some ad) = some (ad.streamBase + k) := by
            simp [PortSession.allocated, hk]
          rw [hport, htext]
          constructor
          · intro h _
            obtain ⟨port, hsome, hparse, hlo, hhi⟩ := h htcp
            obtain rfl : ad.streamBase + k = port := Option.some.inj hsome
            obtain ⟨hlo', hhi'⟩ := (parseAddr_address_iff (by omega) (by omega)).mp hparse
            refine ⟨hout, fun k' hk' => ?_⟩
            obtain rfl := hnext.unique hk'
            exact ⟨hlo', hhi', hhi⟩
          · intro h _
            obtain ⟨hlo, hhi, hle⟩ := (h hpos).2 k hnext
            exact ⟨_, rfl, (parseAddr_address_iff (by omega) (by omega)).mpr ⟨hlo, hhi⟩, by omega, hle⟩
      · exact absurd hpos (Int.not_lt.mpr (hnone ad rfl))
    · have haddr : app.rowAddr serial = none := by simp only [App.rowAddr, had, if_neg hpos]
      refine ⟨fun _ h => absurd h hpos, fun _ htcp => ?_⟩
      rw [rowSession_usb haddr] at htcp
      cases htcp
  | none =>
    simp only [App.Addressable, App.ReadBack, App.sessionHost, had, Option.elim_none]
    have haddr : app.rowAddr serial = some host :=
      rowAddr_wireless had hsplit hlen.1 (by omega)
    have hs : s = newSession base sel app.sessions none (some serial) (some host) :=
      had ▸ rowSession_addr haddr
    obtain ⟨hin, htcp, hk, hlan⟩ | ⟨-, dev, hdev, -⟩ | ⟨hout, -, htcp, hk, hlan, htext⟩ :=
      hs ▸ @newSession_addr base app serial sel none host
    · refine ⟨fun h => ?_, fun h => absurd hin h.1⟩
      obtain ⟨port, hport, -⟩ := h htcp
      simp [PortSession.allocated, hk, hlan] at hport
    · cases hdev
    · have hpos := allocLanPort_pos app.sessions
      have hport : s.allocated none = some (allocLanPort app.sessions) := by
        simp [PortSession.allocated, hk, hlan, Int.ne_of_gt hpos]
      rw [hport, htext]
      constructor
      · intro h
        obtain ⟨port, hsome, -, -, hhi⟩ := h htcp
        obtain rfl := Option.some.inj hsome
        exact ⟨hout, (allocLanPort_le_iff app.sessions).mp hhi⟩
      · intro h _
        have hle := (allocLanPort_le_iff app.sessions).mpr h.2
        exact ⟨_, rfl, (parseAddr_address_iff hpos (by omega)).mpr ⟨hlen.1, by omega⟩, hpos, hle⟩

/-- A wireless device, the first to be opened. -/
theorem tcp_addr_plain : (⟨[], []⟩ : App).ReadBack ("10.0.0.7".toList ++ ':' :: "5555".toList)
    "10.0.0.7".toList ((⟨[], []⟩ : App).rowSession noEnv plainSettings
      ("10.0.0.7".toList ++ ':' :: "5555".toList)) :=
  (tcp_addr_iff noEnv ⟨[], []⟩ plainSettings (by decide) (by decide)).mpr
    ⟨by decide, 27183, by decide, by decide, by simp⟩ rfl

/-- adb writes an IPv6 address in brackets; the core is left with the host `[fe80:` and
port 7. -/
theorem tcp_addr_ipv6 : ¬∀ (base : Base) (app : App) (sel : Settings) (host portText : CString),
    ':' ∉ portText → 0 < host.length ∧ host.length < 64 →
    (app.rowSession base sel (host ++ ':' :: portText)).cfg.transport = .tcp →
    app.ReadBack (host ++ ':' :: portText) host
      (app.rowSession base sel (host ++ ':' :: portText)) := by
  intro hall
  obtain ⟨port, hport, -⟩ := hall noEnv ⟨[], []⟩ plainSettings "[fe80::7]".toList "5555".toList
    (by decide) (by decide) rfl
  have hnone : ((⟨[], []⟩ : App).rowSession noEnv plainSettings
      ("[fe80::7]".toList ++ ':' :: "5555".toList)).allocated none = none := by decide
  exact absurd (hnone.symm.trans hport) (by simp)

end RigControl.Gtk
