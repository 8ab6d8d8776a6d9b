import RigControl.Agent.Routing
import RigControl.Gtk.Session

/-!
# From a session to its device, over the agent

A client reads the first stream port of a device at the discovery port and makes a
session with it. With the default `--adb-base` the numbers of the ports are apart, so
the port the client connects to is relayed to a local port that is forwarded to that
device and to no other, on the port where the server of that session listens.
-/

namespace RigControl.Wire

open RigControl.Lib RigControl.Agent RigControl.Gtk

variable {cfg : Config} {s s' : Globals}

theorem slot?_lt (hi : Inv cfg s) {i : Nat} {slot : Slot} (hs : s.slot? i = some slot) : i < 8 := by
  have hlt : i < s.slots.length := (List.getElem?_eq_some_iff.mp hs).1
  have hroom : s.slots.length ≤ 8 := hi.room
  omega

/-- A local port is forwarded for one slot, to one port. -/
theorem forward_unique (hi : Inv cfg s) (hbase : cfg.adbBase = defaultAdbBase) {f g : Forward}
    (hf : f ∈ s.forwards) (hg : g ∈ s.forwards) (hloc : f.locPort = g.locPort) : f = g := by
  obtain ⟨i, x, hx, hfx⟩ := hi.forward f hf
  obtain ⟨j, y, hy, hgy⟩ := hi.forward g hg
  have hi8 := slot?_lt hi hx
  have hj8 := slot?_lt hi hy
  have hsame : i = j → x = y := by
    rintro rfl
    exact Option.some.inj (hx.symm.trans hy)
  cases hfx with
  | adb =>
    cases hgy with
    | adb =>
      have hij : i = j := by
        simp only at hloc
        omega
      rw [hsame hij, hij]
    | stream k hk =>
      simp only [hbase, defaultAdbBase, streamPort, streamBase, Agent.streamCount, locOffset] at hloc hk
      omega
  | stream k hk =>
    cases hgy with
    | adb =>
      simp only [hbase, defaultAdbBase, streamPort, streamBase, Agent.streamCount, locOffset] at hloc hk
      omega
    | stream l hl =>
      simp only [streamPort, streamBase, Agent.streamCount, locOffset] at hloc hk hl
      obtain ⟨rfl, rfl⟩ : i = j ∧ k = l := by omega
      rw [hsame rfl]

/-- A relay on a stream port of the slot `i` is the stream listener of that port. -/
theorem relays_streamPort (hi : Inv cfg s) (hbase : cfg.adbBase = defaultAdbBase) {l : Listener}
    (hl : l ∈ s.listeners) (hrelay : l.isDiscovery = false) {i k : Nat} (hi8 : i < 8)
    (hk : k < Agent.streamCount) (hport : l.pubPort = streamPort i k) :
    ∃ slot, s.slot? i = some slot ∧ l.dstHost = loopback ∧
      ⟨slot.serial, l.dstPort, streamBase + k⟩ ∈ s.forwards := by
  cases (hi.listener l hl).2 with
  | discovery ip => cases hrelay
  | adb ip host port j slot hs hdst =>
    have hj8 := slot?_lt hi hs
    simp only [hbase, defaultAdbBase, streamPort, streamBase, Agent.streamCount] at hport hk
    omega
  | stream ip j m slot hs hm _ hmade =>
    simp only [streamPort, streamBase, Agent.streamCount] at hport hk hm
    obtain ⟨rfl, rfl⟩ : j = i ∧ m = k := by omega
    exact ⟨slot, hs, rfl, hmade⟩

/-- **Every port leads to its own device.** In every run of rescans, whatever adb lists
and whatever succeeds or fails: slots are never taken back and at most eight, their
serials are distinct, and the slot `i` keeps its serial and the ports of `i`; a local
port is forwarded to one port of one device only; a stream listener of the slot `i`
relays to the local port that is forwarded to the same port of that slot's device; and
a client that reads a device at some time, and makes a session with it, connects to a
port that is relayed, then and later, to the port of that device where the server of
the session is told to listen. -/
theorem agent_routes (hbase : cfg.adbBase = defaultAdbBase) {as bs : List AgentAct}
    (h : (agentLts cfg).run (agentLts cfg).init as = some s)
    (h' : (agentLts cfg).run s bs = some s') :
    (s.slots.length ≤ s'.slots.length ∧ s'.slots.length ≤ maxSlots) ∧
    (s'.slots.map Slot.serial).Nodup ∧
    (∀ i slot, s.slot? i = some slot →
      ∃ slot', s'.slot? i = some slot' ∧ slot'.serial = slot.serial) ∧
    (∀ i slot, s'.slot? i = some slot → slot.idx = i ∧ slot.adbPort = defaultAdbBase + i ∧
      (slot.streamBase = 0 ∨ slot.streamBase = 27183 + 4 * i)) ∧
    (∀ f ∈ s'.forwards, ∀ g ∈ s'.forwards, f.locPort = g.locPort → f = g) ∧
    (∀ l ∈ s'.listeners, ∀ i k, l.group = some (i, k) →
      ∃ slot, s'.slot? i = some slot ∧ k < 4 ∧ l.pubPort = 27183 + 4 * i + k ∧
        l.dstHost = loopback ∧ ⟨slot.serial, l.dstPort, 27183 + k⟩ ∈ s'.forwards ∧
        ∀ f ∈ s'.forwards, f.locPort = l.dstPort → f = ⟨slot.serial, l.dstPort, 27183 + k⟩) ∧
    (∀ line ∈ deviceLines s, ∀ (host client : CString) (sessions : List StreamUse)
      (plan : StreamPlan),
      sessionAgent sessions (some client) ⟨host, client, line.streamBase⟩ = some plan →
      ∀ l ∈ s'.listeners, l.isDiscovery = false → l.pubPort = plan.connectPort →
        l.dstHost = loopback ∧ ⟨line.serial, l.dstPort, plan.tcpDevicePort⟩ ∈ s'.forwards ∧
        ∀ f ∈ s'.forwards, f.locPort = l.dstPort →
          f = ⟨line.serial, l.dstPort, plan.tcpDevicePort⟩) := by
  have hi : Inv cfg s := inv_reachable ⟨as, h⟩
  obtain ⟨hi', hext⟩ := extends_run hi h'
  have hbasePort : ∀ i : Nat, streamPort i 0 = 27183 + 4 * i := by
    intro i
    simp only [streamPort, streamBase, Agent.streamCount]
    omega
  refine ⟨⟨hext.length_le, hi'.room⟩, hi'.distinct, fun i slot hs => ?_, fun i slot hs => ?_,
    fun f hf g hg => forward_unique hi' hbase hf hg, fun l hl i k hg => ?_, ?_⟩
  · obtain ⟨slot', hs', hsame⟩ := hext.slot i slot hs
    exact ⟨slot', hs', hsame.serial⟩
  · obtain ⟨hidx, -, hport, hstream⟩ := hi'.slot i slot hs
    rw [hbasePort] at hstream
    exact ⟨hidx, by rw [hport, hbase], hstream.imp id And.right⟩
  · cases (hi'.listener l hl).2 with
    | discovery ip => cases hg
    | adb ip host port j slot hs hdst => cases hg
    | stream ip j m slot hs hm _ hmade =>
      cases hg
      refine ⟨slot, hs, hm, ?_, rfl, hmade, fun f hf hloc => forward_unique hi' hbase hf hmade hloc⟩
      simp only [streamPort, streamBase, Agent.streamCount]
      omega
  · intro line hline host client sessions plan hplan l hl hrelay hport
    obtain ⟨slot, hslot, rfl⟩ := List.mem_map.mp hline
    obtain ⟨i, hs⟩ := List.mem_iff_getElem?.mp (List.mem_of_mem_filter hslot)
    obtain ⟨hpos, hk, hconnect, hdev⟩ := sessionAgent_eq_some hplan
    have hstream : slot.streamBase = streamPort i 0 :=
      ((hi.slot i slot hs).streamBase.resolve_left (by
        intro h0
        simp [h0] at hpos)).2
    have hpub : l.pubPort = streamPort i plan.streamK := by
      rw [hport, hconnect, hstream]
      simp [streamPort]
    obtain ⟨slot', hs', hhost, hmade⟩ :=
      relays_streamPort hi' hbase hl hrelay (slot?_lt hi hs) hk hpub
    obtain ⟨x, hx, hsame⟩ := hext.slot i slot hs
    obtain rfl : x = slot' := Option.some.inj (hx.symm.trans hs')
    rw [hsame.serial] at hmade
    rw [hdev]
    exact ⟨hhost, hmade, fun f hf hloc => forward_unique hi' hbase hf hmade hloc⟩

def demoDev (c : Char) : Dev := ⟨[c], [], by simp⟩

/-- One phone is there when the agent starts. -/
def plugRun : List AgentAct :=
  [.start [true], .rescan (some [demoDev 'A']) (List.replicate 20 true)]

/-- It goes away, and comes back with another. -/
def replugRun : List AgentAct :=
  [.rescan (some []) [], .rescan (some [demoDev 'B', demoDev 'A']) (List.replicate 40 true)]

theorem agent_routes_replug :
    ∃ s s', (agentLts (Config.default [])).run (agentLts (Config.default [])).init plugRun = some s ∧
      (agentLts (Config.default [])).run s replugRun = some s' ∧
      s'.slots.map (fun x => (x.serial, x.adbPort, x.streamBase)) =
        [(['A'], 15553, 27183), (['B'], 15554, 27187)] ∧
      ∀ f ∈ s'.forwards, ∀ g ∈ s'.forwards, f.locPort = g.locPort → f = g :=
  ⟨_, _, rfl, rfl, rfl, (@agent_routes (.default []) _ _ rfl plugRun replugRun rfl rfl).2.2.2.2.1⟩

end RigControl.Wire
