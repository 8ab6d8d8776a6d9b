import RigControl.Agent.Rescan

/-!
# The ports in the list are open

A line of the discovery port names an adb port and, if its stream base is not 0, four
stream ports. `bind_listeners` gives a slot up when its adb port cannot be bound, but
goes on when a stream port cannot: the list is true of every run in which each
`add_listener` for a stream port finds an address to bind and room in `g_ls`
(`advertised_bound`), and not of others (`advertised_unbound_stream`).
-/

namespace RigControl.Agent

open RigControl.Lib

/-- A listener at the port that relays, wherever to. -/
def Globals.RelaysAt (s : Globals) (port : Int) : Prop :=
  ∃ l ∈ s.listeners, l.pubPort = port ∧ l.isDiscovery = false

/-- A listener at the port that relays to the local port of a stream. -/
def Globals.StreamsAt (s : Globals) (port : Int) : Prop :=
  ∃ l ∈ s.listeners, l.pubPort = port ∧ l.isDiscovery = false ∧ l.dstHost = loopback ∧
    l.dstPort = port + locOffset

instance (s : Globals) (port : Int) : Decidable (s.RelaysAt port) :=
  inferInstanceAs (Decidable (∃ l ∈ s.listeners, _))

instance (s : Globals) (port : Int) : Decidable (s.StreamsAt port) :=
  inferInstanceAs (Decidable (∃ l ∈ s.listeners, _))

/-- What a line promises. -/
def DeviceLine.Bound (s : Globals) (line : DeviceLine) : Prop :=
  s.RelaysAt line.adbPort ∧
    (0 < line.streamBase → ∀ k < streamCount, s.StreamsAt (line.streamBase + k))

instance (s : Globals) (line : DeviceLine) : Decidable (line.Bound s) :=
  inferInstanceAs (Decidable (_ ∧ (_ → ∀ k < streamCount, _)))

variable (cfg : Config)

/-- `add_listener` makes a listener: `g_ls` has room, and an address can be bound. -/
def Globals.CanListen (s : Globals) : Prop :=
  s.listeners.length < maxListeners ∧ true ∈ s.answers.take cfg.bindIps.length

/-- The next step enters `add_listener` for a stream port. -/
def Thread.entersStream (t : Thread) : Bool :=
  match t.work with
  | some (_, .listen (some _) ips made) => ips = cfg.bindIps ∧ made = 0
  | _ => false

def StreamsBind (t : Thread) (a : ThreadAct) : Prop :=
  a = .step → t.entersStream cfg = true → t.tables.CanListen cfg

instance (t : Thread) (a : ThreadAct) : Decidable (StreamsBind cfg t a) :=
  inferInstanceAs (Decidable (_ → _ → _ ∧ _))

/-! ## The invariant -/

/-- The listeners of a slot are there. -/
def Slot.Served (s : Globals) (slot : Slot) : Prop :=
  s.RelaysAt slot.adbPort ∧
    (slot.streamBase ≠ 0 → ∀ k < streamCount, s.StreamsAt (slot.streamBase + k))

/-- What is known when the thread is about to take a step for the slot. -/
def SlotOp.Bound (s : Globals) (slot : Slot) : SlotOp → Prop
  | .listen none _ made => 0 < made → s.RelaysAt slot.adbPort
  | .listen (some k) ips made =>
    s.RelaysAt slot.adbPort ∧ (∀ j < k, s.StreamsAt (slot.streamBase + j)) ∧
      (s.StreamsAt (slot.streamBase + k) ∨ (ips = cfg.bindIps ∧ made = 0) ∨
        (s.listeners.length < maxListeners ∧ true ∈ s.answers.take ips.length))
  | .ready => slot.Served s
  | _ => True

structure Bound (t : Thread) : Prop where
  served : ∀ i slot, t.tables.slot? i = some slot → slot.ready = true → slot.Served t.tables
  work : ∀ i op, t.work = some (i, op) → ∀ slot, t.tables.slot? i = some slot →
    op.Bound cfg t.tables slot

variable {cfg} {s s' : Globals}

theorem Globals.RelaysAt.mono {port : Int} (h : s.RelaysAt port)
    (hl : s.listeners <+: s'.listeners) : s'.RelaysAt port :=
  let ⟨l, hmem, hport⟩ := h
  ⟨l, hl.subset hmem, hport⟩

theorem Globals.StreamsAt.mono {port : Int} (h : s.StreamsAt port)
    (hl : s.listeners <+: s'.listeners) : s'.StreamsAt port :=
  let ⟨l, hmem, hport⟩ := h
  ⟨l, hl.subset hmem, hport⟩

theorem Slot.Served.mono {x y : Slot} (h : x.Served s) (hxy : x.Same y)
    (hl : s.listeners <+: s'.listeners) : y.Served s' := by
  refine ⟨hxy.adbPort ▸ h.1.mono hl, fun hne k hk => ?_⟩
  have hbase : y.streamBase = x.streamBase := hxy.streamBase.resolve_right hne
  rw [hbase] at hne ⊢
  exact (h.2 hne k hk).mono hl

theorem bindIps_ne_nil : cfg.bindIps ≠ [] := by
  simp [Config.bindIps]

/-- After the forwards the slot is done with, or its adb port is to be bound. -/
theorem afterForwards_bound {job : Job} {slot : Slot} {op : SlotOp}
    (h : afterForwards cfg job = some op) : op.Bound cfg s slot := by
  cases job with
  | refresh => cases h
  | setup =>
    cases h
    exact fun hpos => absurd hpos (Nat.lt_irrefl 0)

theorem afterDst_bound {job : Job} {x slot : Slot} {op : SlotOp}
    (h : afterDst cfg job x = some op) : op.Bound cfg s slot := by
  unfold afterDst at h
  split at h
  · cases h
    trivial
  · exact afterForwards_bound h

theorem notReached_bound {job : Job} {again : Bool} {slot : Slot} {op : SlotOp}
    (h : notReached job again = some op) : op.Bound cfg s slot := by
  unfold notReached at h
  split at h
  · cases h
  · cases h
    trivial

/-- One address for a stream port: if it is not the one, the others are left. -/
theorem addListenerOn_stream {l : Listener} {made : Nat} {ips : List CString} {port : Int}
    (hport : l.pubPort = port) (hrelay : l.isDiscovery = false) (hhost : l.dstHost = loopback)
    (hdst : l.dstPort = port + locOffset) (hroom : s.listeners.length < maxListeners)
    (hsome : true ∈ s.answers.take (ips.length + 1)) :
    (addListenerOn l made s).1.StreamsAt port ∨
      ((addListenerOn l made s).1.listeners.length < maxListeners ∧
        true ∈ (addListenerOn l made s).1.answers.take ips.length) := by
  cases hanswers : s.answers with
  | nil => simp [hanswers] at hsome
  | cons a as =>
    rw [hanswers, List.take_succ_cons, List.mem_cons] at hsome
    cases a with
    | true =>
      left
      refine ⟨l, ?_, hport, hrelay, hhost, hdst⟩
      simp [addListenerOn, Globals.answer, hanswers, hroom]
    | false =>
      right
      have hlater : true ∈ as.take ips.length := hsome.resolve_left (by simp)
      simpa [addListenerOn, Globals.answer, hanswers] using ⟨hroom, hlater⟩

/-- A listener made counts. -/
theorem addListenerOn_relays {l : Listener} {made : Nat} {port : Int} (hport : l.pubPort = port)
    (hrelay : l.isDiscovery = false) (hold : 0 < made → s.RelaysAt port)
    (hmade : 0 < (addListenerOn l made s).2) : (addListenerOn l made s).1.RelaysAt port := by
  have hkept := (addListenerOn_kept l made s).listeners
  simp only [addListenerOn] at hmade hkept ⊢
  split
  · rename_i hno
    rw [if_pos hno] at hmade hkept
    exact (hold hmade).mono hkept
  · rename_i hyes
    rw [if_neg hyes] at hmade hkept
    split
    · exact ⟨l, by simp, hport, hrelay⟩
    · rename_i hfull
      rw [if_neg hfull] at hmade hkept
      exact (hold hmade).mono hkept

/-- A step that leaves the slots alone. -/
theorem slot_of_slots_eq {i : Nat} {slot slot' : Slot} (hs : s.slot? i = some slot)
    (hslots : s'.slots = s.slots) (hs' : s'.slot? i = some slot') : slot' = slot := by
  rw [Globals.slot?, hslots] at hs'
  exact Option.some.inj (hs'.symm.trans hs)

/-- The addresses are through: for a stream port one of them was bound. -/
theorem afterListen_bound {k : Option Nat} {made : Nat} {slot : Slot} {op : SlotOp}
    (h : (SlotOp.listen k [] made).Bound cfg s slot) (hop : afterListen cfg slot made k = some op) :
    op.Bound cfg s slot := by
  cases k with
  | none =>
    simp only [afterListen] at hop
    split at hop
    · cases hop
    · rename_i hmade
      have hadb : s.RelaysAt slot.adbPort := h (Nat.pos_of_ne_zero hmade)
      split at hop
      · cases hop
        exact ⟨hadb, fun j hj => absurd hj (Nat.not_lt_zero j), .inr (.inl ⟨rfl, rfl⟩)⟩
      · rename_i hbase
        cases hop
        exact ⟨hadb, fun hne => absurd hne hbase⟩
  | some k =>
    obtain ⟨hadb, hbefore, hk⟩ := h
    have hall : ∀ j < k + 1, s.StreamsAt (slot.streamBase + j) := by
      intro j hj
      rcases Nat.lt_succ_iff_lt_or_eq.mp hj with hlt | rfl
      · exact hbefore j hlt
      · rcases hk with hk | ⟨hnil, -⟩ | ⟨-, hmem⟩
        · exact hk
        · exact absurd hnil.symm bindIps_ne_nil
        · simp at hmem
    simp only [afterListen] at hop
    split at hop
    · cases hop
      exact ⟨hadb, hall, .inr (.inl ⟨rfl, rfl⟩)⟩
    · rename_i hlast
      cases hop
      exact ⟨hadb, fun _ j hj => hall j (by omega)⟩

/-- One more address for a port. -/
theorem addListenerOn_bound {k : Option Nat} {ip : CString} {ips : List CString} {made i : Nat}
    {slot : Slot} (h : (SlotOp.listen k (ip :: ips) made).Bound cfg s slot)
    (hC : ∀ j, k = some j → ip :: ips = cfg.bindIps → made = 0 → s.CanListen cfg) :
    (SlotOp.listen k ips (addListenerOn (slot.listener i ip k) made s).2).Bound cfg
      (addListenerOn (slot.listener i ip k) made s).1 slot := by
  have hkept := addListenerOn_kept (slot.listener i ip k) made s
  cases k with
  | none => exact fun hmade => addListenerOn_relays rfl rfl h hmade
  | some k =>
    obtain ⟨hadb, hbefore, hk⟩ := h
    refine ⟨hadb.mono hkept.listeners, fun j hj => (hbefore j hj).mono hkept.listeners, ?_⟩
    have hcan : s.StreamsAt (slot.streamBase + k) ∨
        (s.listeners.length < maxListeners ∧ true ∈ s.answers.take (ips.length + 1)) := by
      rcases hk with hk | ⟨hstart, hmade⟩ | hk
      · exact .inl hk
      · have h := hC k rfl hstart hmade
        rw [Globals.CanListen, ← hstart] at h
        exact .inr h
      · exact .inr hk
    rcases hcan with hdone | ⟨hroom, hsome⟩
    · exact .inl (hdone.mono hkept.listeners)
    · exact (addListenerOn_stream rfl rfl rfl rfl hroom hsome).imp id .inr

/-- What is known before a step for a slot gives what is known before the next. -/
theorem SlotOp.Bound.exec {op : SlotOp} {i : Nat} {slot : Slot} (hs : s.slot? i = some slot)
    (h : op.Bound cfg s slot)
    (hC : ∀ k, op = .listen (some k) cfg.bindIps 0 → s.CanListen cfg) {op' : SlotOp}
    (hop' : (op.exec cfg i slot s).2 = some op') {slot' : Slot}
    (hs' : (op.exec cfg i slot s).1.slot? i = some slot') :
    op'.Bound cfg (op.exec cfg i slot s).1 slot' := by
  cases op with
  | establish job =>
    simp only [SlotOp.exec] at hop' ⊢
    split at hop'
    · cases hop'
      trivial
    · split at hop'
      · exact afterDst_bound hop'
      · cases hop'
  | forward job again =>
    simp only [SlotOp.exec] at hop'
    split at hop'
    · cases hop'
      trivial
    · exact notReached_bound hop'
  | verify job again =>
    simp only [SlotOp.exec] at hop'
    split at hop'
    · cases hop'
      trivial
    · exact notReached_bound hop'
  | tcpip job =>
    cases hop'
    trivial
  | setDst job => exact afterDst_bound hop'
  | stream job k =>
    simp only [SlotOp.exec] at hop'
    split at hop'
    · cases hop'
      trivial
    · split at hop'
      · cases hop'
        trivial
      · exact afterForwards_bound hop'
  | giveUp job => exact afterForwards_bound hop'
  | listen k ips made =>
    cases ips with
    | nil =>
      obtain rfl := slot_of_slots_eq hs rfl hs'
      exact afterListen_bound h hop'
    | cons ip ips =>
      obtain rfl := slot_of_slots_eq hs (addListenerOn_slots ..) hs'
      cases hop'
      refine addListenerOn_bound h fun j hj hstart hmade => hC j ?_
      rw [hj, hstart, hmade]
  | ready => cases hop'

theorem look_kept (devs : List Dev) {i : Nat} {x' : Slot}
    (hx' : (phaseA devs s).slot? i = some x') :
    ∃ x, s.slot? i = some x ∧ x.Same x' ∧ x'.ready = x.ready := by
  simp only [Globals.slot?, phaseA, List.getElem?_map, Option.map_eq_some_iff] at hx'
  obtain ⟨x, hx, rfl⟩ := hx'
  exact ⟨x, hx, ⟨rfl, rfl, rfl, rfl, .inl rfl⟩, rfl⟩

/-- The slots that are ready after a step were ready before, apart from the one that a
set-up has come to its end for. -/
theorem Bound.exec {t : Thread} (h : Bound cfg t) {i : Nat} {op : SlotOp} {slot : Slot}
    (hwork : t.work = some (i, op)) (hs : t.tables.slot? i = some slot) {j : Nat} {x' : Slot}
    (hx' : (op.exec cfg i slot t.tables).1.slot? j = some x') (hready : x'.ready = true) :
    x'.Served (op.exec cfg i slot t.tables).1 := by
  by_cases hop : op = .ready
  · subst hop
    simp only [SlotOp.exec, Globals.slot?, Globals.modifySlot, List.getElem?_modify] at hx'
    obtain ⟨x, hx, rfl⟩ := Option.map_eq_some_iff.mp hx'
    by_cases hij : i = j
    · subst hij
      rw [if_pos rfl] at hready ⊢
      obtain rfl : x = slot := Option.some.inj (hx.symm.trans hs)
      exact h.work i .ready hwork x hs
    · rw [if_neg hij] at hready ⊢
      exact h.served j x hx hready
  · have hkept := SlotOp.exec_kept cfg hop i slot t.tables
    obtain ⟨x, hx, hsame, -, hr⟩ := hkept.back hx'
    exact (h.served j x hx (hr ▸ hready)).mono hsame hkept.listeners

theorem Bound.next {t t' : Thread} (h : Bound cfg t)
    (hC : t.entersStream cfg = true → t.tables.CanListen cfg) (ht : t.next cfg = some t') :
    Bound cfg t' := by
  rcases Thread.next_cases cfg ht with ⟨i, op, slot, hwork, hs, rfl⟩ | ⟨op, todo, -, -, hmove⟩
  · refine ⟨fun j x' hx' hready => h.exec hwork hs hx' hready, fun j op' hop' slot' hs' => ?_⟩
    obtain ⟨op'', hop'', heq⟩ := Option.map_eq_some_iff.mp hop'
    cases heq
    refine (h.work i op hwork slot hs).exec hs (fun k hk => hC ?_) hop'' hs'
    simp [Thread.entersStream, hwork, hk]
  · cases hmove with
    | look devs =>
      refine ⟨fun j x' hx' hready => ?_, fun j op' hop' => by cases hop'⟩
      obtain ⟨x, hx, hsame, hr⟩ := look_kept devs hx'
      exact (h.served j x hx (hr ▸ hready)).mono hsame List.prefix_rfl
    | idle => exact ⟨h.served, fun j op' hop' => by cases hop'⟩
    | refresh i =>
      have hkept := clearReappeared_kept t.tables i
      refine ⟨fun j x' hx' hready => ?_, fun j op' hop' slot' _ => ?_⟩
      · obtain ⟨x, hx, hsame, -, hr⟩ := hkept.back hx'
        exact (h.served j x hx (hr ▸ hready)).mono hsame hkept.listeners
      · cases hop'
        trivial
    | give d =>
      refine ⟨fun j x' hx' hready => ?_, fun j op' hop' slot' _ => ?_⟩
      · -- the new slot is not ready
        rcases slot?_give cfg hx' with hx | hnew
        · exact h.served j x' hx hready
        · rw [hnew] at hready
          cases hready
      · cases hop'
        trivial

theorem Bound.step {t t' : Thread} {a : ThreadAct} (h : Bound cfg t) (hC : StreamsBind cfg t a)
    (ht : threadStep cfg t a = some t') : Bound cfg t' := by
  cases a with
  | start answers =>
    obtain ⟨s, hs, rfl⟩ := Option.map_eq_some_iff.mp ht
    have hkept := start_kept cfg hs
    refine ⟨fun j x' hx' hready => ?_, fun j op' hop' => by cases hop'⟩
    obtain ⟨x, hx, hsame, -, hr⟩ := hkept.back hx'
    exact (h.served j x hx (hr ▸ hready)).mono hsame hkept.listeners
  | rescan devs answers =>
    obtain rfl := threadStep_rescan cfg ht
    exact ⟨h.served, fun i op hop => by cases hop⟩
  | step => exact h.next (hC rfl) ht

theorem bound_init : Bound cfg (threadLts cfg).init := by
  refine ⟨fun i slot hs => ?_, fun i op hop => ?_⟩
  · simp [threadLts, Globals.empty, Globals.slot?] at hs
  · cases hop

variable (cfg)

/-- **Every port in the list is open**, whenever the discovery port is asked, in a run
in which each `add_listener` for a stream port finds an address to bind and room. -/
theorem advertised_bound (as : List ThreadAct) {t : Thread}
    (hmeets : (threadLts cfg).Meets (StreamsBind cfg) (threadLts cfg).init as)
    (hrun : (threadLts cfg).run (threadLts cfg).init as = some t) :
    ∀ line ∈ deviceLines t.tables, line.Bound t.tables := by
  have hbound : Bound cfg t := Lts.invariant_on (I := Bound cfg)
    (fun _ _ _ hi hC hstep => hi.step hC hstep) bound_init hmeets hrun
  intro line hline
  simp only [deviceLines, List.mem_map, List.mem_filter, Bool.and_eq_true] at hline
  obtain ⟨slot, ⟨hmem, -, hready⟩, rfl⟩ := hline
  obtain ⟨i, hi⟩ := List.mem_iff_getElem?.mp hmem
  obtain ⟨hadb, hstream⟩ := hbound.served i slot hi hready
  exact ⟨hadb, fun hpos => hstream (Int.ne_of_gt hpos)⟩

/-- An emulator, and the loopback to bind on: the discovery port opens, the guest is
reached, the stream ports are forwarded and the adb port is bound; `streams` says which
stream ports are. -/
def oneDeviceRun (streams : List Bool) : List ThreadAct :=
  .start [true] ::
    .rescan (some [emulator]) (List.replicate 9 true ++ streams) ::
    List.replicate 22 .step

theorem advertised_bound_run : ∃ t,
    (threadLts (.default [])).run ⟨.empty, none, []⟩ (oneDeviceRun [true, true, true, true]) =
      some t ∧ (deviceLines t.tables).length = 1 ∧
      ∀ line ∈ deviceLines t.tables, line.Bound t.tables := by
  refine ⟨_, rfl, by decide, ?_⟩
  exact advertised_bound (.default []) (oneDeviceRun [true, true, true, true]) (by decide) rfl

/-- The first stream port cannot be bound. -/
theorem advertised_unbound_stream :
    ¬∀ (cfg : Config) (as : List ThreadAct) (t : Thread),
      (threadLts cfg).run (threadLts cfg).init as = some t →
        ∀ line ∈ deviceLines t.tables, line.Bound t.tables := by
  intro h
  have hbound := h (.default []) (oneDeviceRun [false, true, true, true]) _ rfl
  revert hbound
  decide

end RigControl.Agent
