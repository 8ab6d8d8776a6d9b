import RigControl.Agent.Effects

/-!
# Every port leads to its own device

What the effects keep: a slot stays with its serial, its ports are those of its index,
a local port is only forwarded for one slot, and a listener relays to a local port of
the slot it was opened for. So what a client reads at the discovery port and what
`session_new` makes of it name the same device.
-/

namespace RigControl.Agent

open RigControl.Lib

/-- The public stream port `k` of the slot `i`. -/
def streamPort (i k : Nat) : Int := streamBase + i * streamCount + k

variable (cfg : Config)

/-- A slot at the index `i` has the ports of the index. -/
structure Slot.At (slot : Slot) (i : Nat) : Prop where
  idx : slot.idx = i
  kind : slot.kind = devKind slot.serial
  adbPort : slot.adbPort = cfg.adbBase + i
  streamBase : slot.streamBase = 0 ∨ (cfg.noStream = false ∧ slot.streamBase = streamPort i 0)

/-- The forwards of the slot `i`, by the numbers. -/
inductive PortOf (i : Nat) (serial : CString) : Forward → Prop where
  | adb : PortOf i serial ⟨serial, cfg.adbBase + i + locOffset, cfg.tcpipPort⟩
  | stream (k : Nat) : k < streamCount →
      PortOf i serial ⟨serial, streamPort i k + locOffset, Agent.streamBase + k⟩

/-- Where the adb port of the slot `i` is relayed to, by its serial. -/
def adbDst (i : Nat) (serial : CString) : Option (CString × Int) :=
  if devKind serial ≠ .wireless then some (loopback, cfg.adbBase + i + locOffset)
  else wirelessDst serial

/-- What a listener is for. -/
inductive Relays (s : Globals) : Listener → Prop where
  | discovery (ip : CString) : Relays s ⟨ip, cfg.discoveryPort, loopback, 0, none, true⟩
  | adb (ip host : CString) (port : Int) (i : Nat) (slot : Slot) : s.slot? i = some slot →
      adbDst cfg i slot.serial = some (host, port) →
      Relays s ⟨ip, cfg.adbBase + i, host, port, none, false⟩
  | stream (ip : CString) (i k : Nat) (slot : Slot) : s.slot? i = some slot → k < streamCount →
      cfg.noStream = false → ⟨slot.serial, streamPort i k + locOffset, Agent.streamBase + k⟩ ∈ s.forwards →
      Relays s ⟨ip, streamPort i k, loopback, streamPort i k + locOffset, some (i, k), false⟩

structure Inv (s : Globals) : Prop where
  room : s.slots.length ≤ maxSlots
  distinct : (s.slots.map Slot.serial).Nodup
  slot : ∀ i slot, s.slot? i = some slot → slot.At cfg i
  forward : ∀ f ∈ s.forwards, ∃ i slot, s.slot? i = some slot ∧ PortOf cfg i slot.serial f
  listener : ∀ l ∈ s.listeners, l.ip ∈ cfg.bindIps ∧ Relays cfg s l

/-- The tables only grow, and a slot stays the same. -/
structure Extends (s s' : Globals) : Prop where
  slot : ∀ i slot, s.slot? i = some slot → ∃ slot', s'.slot? i = some slot' ∧ slot.Same slot'
  forwards : s.forwards ⊆ s'.forwards
  listeners : s.listeners <+: s'.listeners

variable {cfg} {D : Dev → Prop} {s s' s'' : Globals}

theorem Slot.Same.refl (x : Slot) : x.Same x := ⟨rfl, rfl, rfl, rfl, .inl rfl⟩

theorem Slot.Same.trans {x y z : Slot} (h : x.Same y) (h' : y.Same z) : x.Same z where
  serial := h'.serial.trans h.serial
  kind := h'.kind.trans h.kind
  idx := h'.idx.trans h.idx
  adbPort := h'.adbPort.trans h.adbPort
  streamBase := by
    rcases h'.streamBase with hz | hz
    · rw [hz]
      exact h.streamBase
    · exact .inr hz

namespace Extends

theorem refl (s : Globals) : Extends s s :=
  ⟨fun _ slot hs => ⟨slot, hs, .refl slot⟩, List.Subset.refl _, List.prefix_rfl⟩

/-- Effects that leave the slots as they are. -/
theorem of_slots (hslots : s'.slots = s.slots) (hf : s.forwards ⊆ s'.forwards)
    (hl : s.listeners <+: s'.listeners) : Extends s s' :=
  ⟨fun i slot hs => ⟨slot, by rw [Globals.slot?, hslots]; exact hs, .refl slot⟩, hf, hl⟩

theorem trans (h : Extends s s') (h' : Extends s' s'') : Extends s s'' where
  slot i slot hs := by
    obtain ⟨y, hy, hxy⟩ := h.slot i slot hs
    obtain ⟨z, hz, hyz⟩ := h'.slot i y hy
    exact ⟨z, hz, hxy.trans hyz⟩
  forwards := List.Subset.trans h.forwards h'.forwards
  listeners := h.listeners.trans h'.listeners

theorem length_le (h : Extends s s') : s.slots.length ≤ s'.slots.length := by
  by_contra hlt
  have hi : s'.slots.length < s.slots.length := Nat.lt_of_not_le hlt
  obtain ⟨x, hx, -⟩ := h.slot _ _ (List.getElem?_eq_getElem hi)
  rw [Globals.slot?, List.getElem?_eq_none (Nat.le_refl _)] at hx
  cases hx

/-- What a listener is for does not change. -/
theorem relays (h : Extends s s') {l : Listener} (hl : Relays cfg s l) : Relays cfg s' l := by
  cases hl with
  | discovery ip => exact .discovery ip
  | adb ip host port i slot hs hdst =>
    obtain ⟨slot', hs', hsame⟩ := h.slot i slot hs
    exact .adb ip host port i slot' hs' (hsame.serial ▸ hdst)
  | stream ip i k slot hs hk hno hmade =>
    obtain ⟨slot', hs', hsame⟩ := h.slot i slot hs
    exact .stream ip i k slot' hs' hk hno (hsame.serial ▸ h.forwards hmade)

end Extends

theorem Effect.extends (h : Effect cfg D s s') : Extends s s' := by
  cases h with
  | answers as => exact .of_slots rfl (List.Subset.refl _) List.prefix_rfl
  | fwds fs => exact .of_slots rfl (List.Subset.refl _) List.prefix_rfl
  | warned => exact .of_slots rfl (List.Subset.refl _) List.prefix_rfl
  | command c ok hc =>
    refine .of_slots rfl ?_ List.prefix_rfl
    simp [Globals.forwards, List.filterMap_append]
  | update i f hf =>
    refine ⟨fun j slot hs => ?_, List.Subset.refl _, List.prefix_rfl⟩
    simp only [Globals.slot?, Globals.modifySlot, List.getElem?_modify] at hs ⊢
    rw [hs]
    split
    · exact ⟨f slot, rfl, hf slot⟩
    · exact ⟨slot, rfl, .refl slot⟩
  | look devs =>
    refine ⟨fun j slot hs => ?_, List.Subset.refl _, List.prefix_rfl⟩
    refine ⟨slot.look devs, ?_, rfl, rfl, rfl, rfl, .inl rfl⟩
    simp only [Globals.slot?, phaseA, List.getElem?_map] at hs ⊢
    rw [hs]
    rfl
  | listen i slot l hs hserve hip =>
    exact .of_slots rfl (List.Subset.refl _) (List.prefix_append _ _)
  | give d hd hnew hroom =>
    refine ⟨fun j slot hs => ⟨slot, ?_, .refl slot⟩, List.Subset.refl _, List.prefix_rfl⟩
    have hlt := (List.getElem?_eq_some_iff.mp hs).1
    rw [Globals.slot?, List.getElem?_append_left hlt]
    exact hs

theorem Steps.extends (h : Steps cfg D s s') : Extends s s' := by
  induction h with
  | refl => exact .refl s
  | tail _ he ih => exact ih.trans he.extends

/-! ## The invariant -/

theorem Slot.At.mono {x y : Slot} {i : Nat} (h : x.At cfg i) (hxy : x.Same y) : y.At cfg i where
  idx := hxy.idx.trans h.idx
  kind := by rw [hxy.kind, hxy.serial, h.kind]
  adbPort := hxy.adbPort.trans h.adbPort
  streamBase := by
    rcases hxy.streamBase with hy | hy
    · rw [hy]
      exact h.streamBase
    · exact .inl hy

theorem newSlot_at (d : Dev) (i : Nat) : (newSlot cfg d i).At cfg i := by
  refine ⟨rfl, rfl, rfl, ?_⟩
  unfold newSlot
  split
  · exact .inl rfl
  · rename_i hno
    exact .inr ⟨by simpa using hno, by simp [streamPort]⟩

theorem newSlot_serial (d : Dev) (i : Nat) : (newSlot cfg d i).serial = d.serial :=
  List.take_of_length_le d.fits.1

/-- A stream forward by the numbers. -/
theorem Slot.At.streamForward {slot : Slot} {i : Nat} (h : slot.At cfg i)
    (hne : slot.streamBase ≠ 0) (k : Nat) :
    slot.streamForward k =
      ⟨slot.serial, streamPort i k + locOffset, Agent.streamBase + k⟩ ∧
        slot.streamBase + k = streamPort i k ∧ cfg.noStream = false := by
  obtain ⟨hno, hb⟩ := h.streamBase.resolve_left hne
  have hport : slot.streamBase + k = streamPort i k := by
    rw [hb]
    simp [streamPort]
  exact ⟨by rw [Slot.streamForward, hport], hport, hno⟩

theorem Slot.At.portOf {slot : Slot} {i : Nat} (h : slot.At cfg i) {f : Forward}
    (hf : slot.Forwards cfg f) : PortOf cfg i slot.serial f := by
  cases hf with
  | adb =>
    rw [h.adbPort]
    exact .adb
  | stream k hk hne =>
    rw [(h.streamForward hne k).1]
    exact .stream k hk

theorem Slot.At.relayDst {slot : Slot} {i : Nat} (h : slot.At cfg i) :
    slot.relayDst = adbDst cfg i slot.serial := by
  rw [Slot.relayDst, adbDst, h.kind, h.adbPort]

theorem Slot.At.relays {slot : Slot} {i : Nat} (h : slot.At cfg i) (hs : s.slot? i = some slot)
    {l : Listener} (hl : slot.Serves s i l) : Relays cfg s l := by
  cases hl with
  | adb ip host port hdst =>
    rw [h.adbPort]
    exact .adb ip host port i slot hs (h.relayDst ▸ hdst)
  | stream ip k hk hne hmade =>
    obtain ⟨hfw, hport, hno⟩ := h.streamForward hne k
    rw [hport]
    exact .stream ip i k slot hs hk hno (hfw ▸ hmade)

/-- The forwards that were there lead to the same slots. -/
theorem Inv.forward_extends (hi : Inv cfg s) (hext : Extends s s') {fs : List Forward}
    (hfs : fs ⊆ s.forwards) :
    ∀ f ∈ fs, ∃ i slot, s'.slot? i = some slot ∧ PortOf cfg i slot.serial f := by
  intro f hf
  obtain ⟨i, slot, hs, hp⟩ := hi.forward f (hfs hf)
  obtain ⟨slot', hs', hsame⟩ := hext.slot i slot hs
  exact ⟨i, slot', hs', hsame.serial ▸ hp⟩

/-- The listeners that were there are for the same. -/
theorem Inv.listener_extends (hi : Inv cfg s) (hext : Extends s s') {ls : List Listener}
    (hls : ls ⊆ s.listeners) : ∀ l ∈ ls, l.ip ∈ cfg.bindIps ∧ Relays cfg s' l := fun l hl =>
  ⟨(hi.listener l (hls hl)).1, hext.relays (hi.listener l (hls hl)).2⟩

theorem Inv.of_same (hi : Inv cfg s) (hslots : s'.slots = s.slots) (htrace : s'.trace = s.trace)
    (hlisteners : s'.listeners = s.listeners) : Inv cfg s' ∧ Extends s s' := by
  have hforwards : s'.forwards = s.forwards := by rw [Globals.forwards, htrace, Globals.forwards]
  have hext : Extends s s' :=
    .of_slots hslots (hforwards ▸ List.Subset.refl _) (hlisteners ▸ List.prefix_rfl)
  refine ⟨⟨hslots ▸ hi.room, hslots ▸ hi.distinct, ?_, ?_, ?_⟩, hext⟩
  · intro i slot hs
    rw [Globals.slot?, hslots] at hs
    exact hi.slot i slot hs
  · exact hi.forward_extends hext (hforwards ▸ List.Subset.refl _)
  · exact hi.listener_extends hext (hlisteners ▸ List.Subset.refl _)

theorem mem_made {c : AdbCmd} {ok : Bool} {f : Forward}
    (h : f ∈ [(c, ok)].filterMap AdbCmd.made) : c = .forward f.serial f.locPort f.devPort := by
  obtain ⟨p, hp, hmade⟩ := List.mem_filterMap.mp h
  obtain rfl := List.mem_singleton.mp hp
  cases c <;> cases ok <;> cases hmade
  rfl

theorem map_serial_modify (slots : List Slot) (i : Nat) {f : Slot → Slot}
    (hf : ∀ x : Slot, x.Same (f x)) :
    (slots.modify i f).map Slot.serial = slots.map Slot.serial := by
  apply List.ext_getElem?
  intro j
  simp only [List.getElem?_map, List.getElem?_modify]
  split
  · simp [Function.comp_def, (hf _).serial]
  · simp

/-- The next slot is given to a serial that has none. -/
theorem Inv.give (hi : Inv cfg s) (d : Dev) (hnew : ∀ slot ∈ s.slots, slot.serial ≠ d.serial)
    (hroom : s.slots.length < maxSlots)
    (hext : Extends s { s with slots := s.slots ++ [newSlot cfg d s.slots.length] }) :
    Inv cfg { s with slots := s.slots ++ [newSlot cfg d s.slots.length] } where
  room := by
    rw [List.length_append]
    exact hroom
  distinct := by
    have hserial : (newSlot cfg d s.slots.length).serial = d.serial := newSlot_serial d _
    rw [List.map_append, List.nodup_append]
    refine ⟨hi.distinct, by simp, fun x hx y hy => ?_⟩
    obtain ⟨slot, hslot, rfl⟩ := List.mem_map.mp hx
    obtain rfl : y = d.serial := by
      rw [← hserial]
      simpa using hy
    exact hnew slot hslot
  slot j slot hs := by
    rcases Nat.lt_or_ge j s.slots.length with hlt | hge
    · rw [Globals.slot?, List.getElem?_append_left hlt] at hs
      exact hi.slot j slot hs
    · rw [Globals.slot?, List.getElem?_append_right hge] at hs
      obtain ⟨hj, rfl⟩ := List.getElem?_eq_some_iff.mp hs
      obtain rfl : j = s.slots.length := by
        simp only [List.length_singleton] at hj
        omega
      simpa using @newSlot_at cfg d s.slots.length
  forward := hi.forward_extends hext (List.Subset.refl _)
  listener := hi.listener_extends hext (List.Subset.refl _)

theorem Inv.effect (hi : Inv cfg s) (h : Effect cfg D s s') : Inv cfg s' := by
  have hext := h.extends
  have hsame : ∀ t : Globals, t.slots = s.slots → t.trace = s.trace → t.listeners = s.listeners →
      Inv cfg t := fun _ hslots htrace hlisteners => (hi.of_same hslots htrace hlisteners).1
  -- the forwards and the listeners that were there before
  have hforward := hi.forward_extends hext (List.Subset.refl _)
  have hlistener := hi.listener_extends hext (List.Subset.refl _)
  cases h with
  | answers as => exact hsame _ rfl rfl rfl
  | fwds fs => exact hsame _ rfl rfl rfl
  | warned => exact hsame _ rfl rfl rfl
  | command c ok hc =>
    refine ⟨hi.room, hi.distinct, hi.slot, fun f hf => ?_, hlistener⟩
    simp only [Globals.forwards, List.filterMap_append, List.mem_append] at hf
    rcases hf with hf | hf
    · exact hforward f hf
    · obtain ⟨i, slot, hs, hfw⟩ := hc _ _ _ (mem_made hf)
      exact ⟨i, slot, hs, (hi.slot i slot hs).portOf hfw⟩
  | update i f hf =>
    refine ⟨?_, ?_, fun j slot hs => ?_, hforward, hlistener⟩
    · rw [Globals.modifySlot, List.length_modify]
      exact hi.room
    · rw [Globals.modifySlot, map_serial_modify _ _ hf]
      exact hi.distinct
    · simp only [Globals.slot?, Globals.modifySlot, List.getElem?_modify] at hs
      split at hs
      · obtain ⟨x, hx, rfl⟩ := Option.map_eq_some_iff.mp hs
        exact (hi.slot j x hx).mono (hf x)
      · exact hi.slot j slot (by simpa [Globals.slot?] using hs)
  | look devs =>
    refine ⟨?_, ?_, fun j slot hs => ?_, hforward, hlistener⟩
    · rw [phaseA, List.length_map]
      exact hi.room
    · rw [phaseA, List.map_map]
      exact hi.distinct
    · simp only [Globals.slot?, phaseA, List.getElem?_map] at hs
      obtain ⟨x, hx, rfl⟩ := Option.map_eq_some_iff.mp hs
      exact (hi.slot j x hx).mono ⟨rfl, rfl, rfl, rfl, .inl rfl⟩
  | listen i slot l hs hserve hip =>
    refine ⟨hi.room, hi.distinct, hi.slot, hforward, fun l' hl' => ?_⟩
    rcases List.mem_append.mp hl' with hl' | hl'
    · exact hlistener l' hl'
    · obtain rfl := List.mem_singleton.mp hl'
      exact ⟨hip, hext.relays ((hi.slot i slot hs).relays hs hserve)⟩
  | give d hd hnew hroom => exact hi.give d hnew hroom hext

theorem Inv.steps (hi : Inv cfg s) (h : Steps cfg D s s') : Inv cfg s' := by
  induction h with
  | refl => exact hi
  | tail _ he ih => exact ih.effect he

/-- One more listener on the discovery port. -/
theorem Inv.discovery (hi : Inv cfg s) {ip : CString} (hip : ip ∈ cfg.bindIps) (made : Nat) :
    Inv cfg (addListenerOn ⟨ip, cfg.discoveryPort, loopback, 0, none, true⟩ made s).1 ∧
      Extends s (addListenerOn ⟨ip, cfg.discoveryPort, loopback, 0, none, true⟩ made s).1 := by
  simp only [addListenerOn]
  split
  · exact hi.of_same rfl rfl rfl
  split
  · have hext : Extends s { s.answer.1 with
        listeners := s.listeners ++ [⟨ip, cfg.discoveryPort, loopback, 0, none, true⟩] } :=
      .of_slots rfl (List.Subset.refl _) (List.prefix_append _ _)
    refine ⟨⟨hi.room, hi.distinct, hi.slot, hi.forward, fun l hl => ?_⟩, hext⟩
    rcases List.mem_append.mp hl with hl | hl
    · exact ⟨(hi.listener l hl).1, hext.relays (hi.listener l hl).2⟩
    · obtain rfl := List.mem_singleton.mp hl
      exact ⟨hip, .discovery ip⟩
  · exact hi.of_same rfl rfl rfl

theorem Inv.openDiscovery (hi : Inv cfg s) :
    Inv cfg (addListener cfg cfg.discoveryPort loopback 0 none true s).1 ∧
      Extends s (addListener cfg cfg.discoveryPort loopback 0 none true s).1 := by
  have hfold : ∀ (ips : List CString), (∀ ip ∈ ips, ip ∈ cfg.bindIps) → ∀ (p : Globals × Nat),
      Inv cfg p.1 ∧ Extends s p.1 →
      let q := ips.foldl (fun (p : Globals × Nat) ip =>
        addListenerOn ⟨ip, cfg.discoveryPort, loopback, 0, none, true⟩ p.2 p.1) p
      Inv cfg q.1 ∧ Extends s q.1 := by
    intro ips
    induction ips with
    | nil => exact fun _ _ h => h
    | cons ip ips ih =>
      intro hips p hp
      obtain ⟨hone, hext⟩ := hp.1.discovery (hips ip List.mem_cons_self) p.2
      exact ih (fun ip' h => hips ip' (List.mem_cons_of_mem ip h)) _ ⟨hone, hp.2.trans hext⟩
  exact hfold cfg.bindIps (fun _ h => h) (s, 0) ⟨hi, .refl s⟩

/-- **A step of the agent keeps the invariant and only extends the tables.** -/
theorem Inv.step (hi : Inv cfg s) {a : AgentAct} (h : agentStep cfg s a = some s') :
    Inv cfg s' ∧ Extends s s' := by
  cases a with
  | start answers =>
    obtain rfl := agentStep_start cfg h
    obtain ⟨h1, e1⟩ := @Inv.of_same cfg s { s with answers := answers } hi rfl rfl rfl
    obtain ⟨h2, e2⟩ := h1.openDiscovery
    obtain ⟨h3, e3⟩ := @Inv.of_same cfg _ { (addListener cfg cfg.discoveryPort loopback 0 none
      true { s with answers := answers }).1 with started := true } h2 rfl rfl rfl
    exact ⟨h3, (e1.trans e2).trans e3⟩
  | rescan devs answers =>
    obtain rfl := agentStep_rescan cfg h
    have hsteps : Steps cfg _ s (rescanOnce cfg devs { s with answers := answers }) :=
      .head (.answers answers) (rescanOnce_steps cfg devs _)
    exact ⟨hi.steps hsteps, hsteps.extends⟩

theorem inv_empty : Inv cfg Globals.empty := by
  refine ⟨Nat.zero_le _, List.nodup_nil, fun i slot hs => ?_, fun f hf => ?_, fun l hl => ?_⟩
  · cases hs
  · cases hf
  · cases hl

/-- What holds of the agent in every state. -/
theorem inv_reachable (h : (agentLts cfg).Reachable s) : Inv cfg s :=
  h.invariant (I := Inv cfg) inv_empty fun _ _ _ hi hstep => (hi.step hstep).1

/-- The tables only grow. -/
theorem extends_run (hi : Inv cfg s) {as : List AgentAct} (h : (agentLts cfg).run s as = some s') :
    Inv cfg s' ∧ Extends s s' := by
  refine Lts.invariant (I := fun t => Inv cfg t ∧ Extends s t) (fun t a t' ht hstep => ?_)
    ⟨hi, .refl s⟩ h
  obtain ⟨hi', hext⟩ := ht.1.step hstep
  exact ⟨hi', ht.2.trans hext⟩

end RigControl.Agent
