import RigControl.Agent.Whole

/-!
# What plugging a device in again repairs

A device whose slot was set up is refreshed when it comes back. A slot whose first
set-up failed stays as it is, and so does the stream range that a failed forward gave
up: phase A marks only ready slots for a refresh, and nothing sets `stream_base` again.
-/

namespace RigControl.Agent

open RigControl.Lib

/-- A command has failed since. -/
def Globals.Failed (u s : Globals) : Prop := ∃ c ∈ s.trace.drop u.trace.length, c.2 = false

/-- What the steps after phase A keep of a slot `x` that was there before and is in the
list. -/
structure Old (u : Globals) (i : Nat) (x : Slot) (t : Thread) : Prop where
  trace : u.trace <+: t.tables.trace
  look : ∀ devs, .look devs ∉ t.todo
  slot : ∃ y, t.tables.slot? i = some y ∧ x.Same y ∧ y.present = true ∧ y.ready = x.ready ∧
    (y.streamBase = x.streamBase ∨ Globals.Failed u t.tables)
  work : ∀ op, t.work = some (i, op) → op.setsUp = false
  giveUp : ∀ j job, t.work = some (j, .giveUp job) → Globals.Failed u t.tables

variable {cfg : Config} {u s s' : Globals} {i : Nat} {x : Slot}

theorem Globals.Failed.mono (h : Globals.Failed u s) (hu : u.trace <+: s.trace)
    (hs : s.trace <+: s'.trace) : Globals.Failed u s' := by
  obtain ⟨c, hc, hfail⟩ := h
  obtain ⟨new, hnew⟩ := hs
  refine ⟨c, ?_, hfail⟩
  rw [← hnew, List.drop_append_of_le_length hu.length_le]
  exact List.mem_append_left _ hc

theorem adbForward_failed (hu : u.trace <+: s.trace) {serial : CString} {loc dev : Int}
    (h : (adbForward serial loc dev s).2 = false) :
    Globals.Failed u (adbForward serial loc dev s).1 := by
  refine ⟨(.forward serial loc dev, false), ?_, rfl⟩
  rw [adbForward_trace, h, List.drop_append_of_le_length hu.length_le]
  exact List.mem_append_right _ (List.mem_singleton.mpr rfl)

theorem afterForwards_ne {job job' : Job} : afterForwards cfg job ≠ some (.giveUp job') := by
  cases job <;> simp [afterForwards]

theorem afterDst_ne {job job' : Job} : afterDst cfg job x ≠ some (.giveUp job') := by
  unfold afterDst
  split
  · simp
  · exact afterForwards_ne

theorem notReached_ne {job job' : Job} {again : Bool} :
    notReached job again ≠ some (.giveUp job') := by
  unfold notReached
  split <;> simp

/-- The stream range is given up after a forward that failed. -/
theorem giveUp_failed (hu : u.trace <+: s.trace) {op : SlotOp} {slot : Slot} {job : Job}
    (h : (op.exec cfg i slot s).2 = some (.giveUp job)) :
    Globals.Failed u (op.exec cfg i slot s).1 := by
  cases op with
  | establish job' =>
    simp only [SlotOp.exec] at h
    split at h
    · cases h
    · split at h
      · exact absurd h afterDst_ne
      · cases h
  | forward job' again =>
    simp only [SlotOp.exec] at h
    split at h
    · cases h
    · exact absurd h notReached_ne
  | verify job' again =>
    simp only [SlotOp.exec] at h
    split at h
    · cases h
    · exact absurd h notReached_ne
  | tcpip job' => cases h
  | setDst job' => exact absurd h afterDst_ne
  | stream job' k =>
    simp only [SlotOp.exec] at h ⊢
    split at h
    · rename_i hok
      exact adbForward_failed hu (by simpa using hok)
    · split at h
      · cases h
      · exact absurd h afterForwards_ne
  | giveUp job' => exact absurd h afterForwards_ne
  | listen k ips made =>
    cases ips with
    | cons ip ips => cases h
    | nil =>
      cases k with
      | none =>
        simp only [SlotOp.exec, afterListen] at h
        split at h
        · cases h
        · split at h <;> cases h
      | some k =>
        simp only [SlotOp.exec, afterListen] at h
        split at h <;> cases h
  | ready => cases h

def Globals.bases (s : Globals) : List Int := s.slots.map Slot.streamBase

theorem bases_modifySlot (s : Globals) (i : Nat) {f : Slot → Slot}
    (hf : ∀ x, (f x).streamBase = x.streamBase) : (s.modifySlot i f).bases = s.bases := by
  apply List.ext_getElem?
  intro j
  simp only [Globals.bases, Globals.modifySlot, List.getElem?_map, List.getElem?_modify]
  by_cases hij : i = j
  · simp [hij, Function.comp_def, hf]
  · simp [hij]

theorem bases_of_slots (h : s'.slots = s.slots) : s'.bases = s.bases := by
  rw [Globals.bases, h, Globals.bases]

/-- Only giving the stream ports up changes a stream base. -/
theorem SlotOp.exec_bases {op : SlotOp} (hop : ∀ job, op ≠ .giveUp job) (j : Nat) (slot : Slot)
    (s : Globals) : (op.exec cfg j slot s).1.bases = s.bases := by
  have hdst : ∀ host port, (Agent.setDst j host port s).bases = s.bases := fun host port =>
    bases_modifySlot s j fun _ => rfl
  cases op with
  | establish job =>
    simp only [SlotOp.exec]
    split
    · rfl
    · split
      · exact hdst ..
      · rfl
  | forward job again => exact bases_of_slots (adbForward_slots ..)
  | verify job again => exact bases_of_slots (verifyGuestAdb_slots ..)
  | tcpip job => rfl
  | setDst job => exact hdst ..
  | stream job k => exact bases_of_slots (adbForward_slots ..)
  | giveUp job => exact absurd rfl (hop job)
  | listen k ips made =>
    cases ips with
    | nil => rfl
    | cons ip ips => exact bases_of_slots (addListenerOn_slots ..)
  | ready => exact bases_modifySlot s j fun _ => rfl

theorem base_of_bases (h : s'.bases = s.bases) {y z : Slot} (hy : s.slot? i = some y)
    (hz : s'.slot? i = some z) : z.streamBase = y.streamBase := by
  have hget : s'.bases[i]? = s.bases[i]? := by rw [h]
  simp only [Globals.bases, List.getElem?_map] at hget
  rw [show s'.slots[i]? = some z from hz, show s.slots[i]? = some y from hy] at hget
  exact Option.some.inj hget

theorem Old.step {t t' : Thread} (h : Old u i x t) (ht : t.next cfg = some t') : Old u i x t' := by
  obtain ⟨y, hy, hsame, hp, hr, hbase⟩ := h.slot
  rcases Thread.next_cases cfg ht with ⟨j, op, slot, hwork, hs, rfl⟩ | ⟨op, todo, -, htodo, hmove⟩
  · -- a step of the work on some slot, which is no set-up if it is this one
    have htrace : t.tables.trace <+: (op.exec cfg j slot t.tables).1.trace := by
      by_cases hop : op = .ready
      · subst hop
        exact List.prefix_rfl
      · exact (SlotOp.exec_kept cfg hop j slot t.tables).trace
    have hslot : ∃ z, (op.exec cfg j slot t.tables).1.slot? i = some z ∧ y.Same z ∧
        z.present = y.present ∧ z.ready = y.ready := by
      by_cases hop : op = .ready
      · subst hop
        have hij : j ≠ i := by
          rintro rfl
          cases h.work _ hwork
        refine ⟨y, ?_, .refl y, rfl, rfl⟩
        simp only [SlotOp.exec, Globals.slot?, Globals.modifySlot, List.getElem?_modify, if_neg hij]
        rw [show t.tables.slots[i]? = some y from hy]
        rfl
      · exact (SlotOp.exec_kept cfg hop j slot t.tables).slot i y hy
    obtain ⟨z, hz, hyz, hpz, hrz⟩ := hslot
    refine ⟨h.trace.trans htrace, h.look, ⟨z, hz, hsame.trans hyz, hpz.trans hp, hrz.trans hr, ?_⟩,
      fun op' hop' => ?_, fun k job hop' => ?_⟩
    · by_cases hop : ∃ job, op = .giveUp job
      · obtain ⟨job, rfl⟩ := hop
        exact .inr ((h.giveUp j job hwork).mono h.trace htrace)
      · have hzy := base_of_bases (SlotOp.exec_bases (fun job hj => hop ⟨job, hj⟩) j slot t.tables)
          hy hz
        rw [hzy]
        exact hbase.imp id fun hfail => hfail.mono h.trace htrace
    · obtain ⟨op'', hop'', heq⟩ := Option.map_eq_some_iff.mp hop'
      cases heq
      by_contra hsets
      have hold := SlotOp.setsUp_exec hop'' (by simpa using hsets)
      rw [h.work op hwork] at hold
      cases hold
    · obtain ⟨op'', hop'', heq⟩ := Option.map_eq_some_iff.mp hop'
      cases heq
      exact giveUp_failed h.trace hop''
  · have hrest : ∀ devs, .look devs ∉ todo := fun devs hmem =>
      h.look devs (by rw [htodo]; exact List.mem_cons_of_mem op hmem)
    cases hmove with
    | look devs => exact absurd (by rw [htodo]; exact List.mem_cons_self) (h.look devs)
    | idle => exact ⟨h.trace, hrest, ⟨y, hy, hsame, hp, hr, hbase⟩, fun op' hop' => (by cases hop'),
        fun k job hop' => (by cases hop')⟩
    | refresh j =>
      obtain ⟨z, hz, hyz, hpz, hrz⟩ := (clearReappeared_kept t.tables j).slot i y hy
      have hzy := base_of_bases (@bases_modifySlot t.tables j
        (fun slot => { slot with reappeared := false }) fun _ => rfl) hy hz
      refine ⟨h.trace, fun devs => ?_, ⟨z, hz, hsame.trans hyz, hpz.trans hp, hrz.trans hr,
        by rw [hzy]; exact hbase⟩, fun op' hop' => ?_, fun k job hop' => (by cases hop')⟩
      · simp [hrest devs]
      · cases hop'
        rfl
    | give d =>
      -- the new slot is another one
      have hlt : i < t.tables.slots.length := (List.getElem?_eq_some_iff.mp hy).1
      refine ⟨h.trace, hrest, ⟨y, ?_, hsame, hp, hr, hbase⟩, fun op' hop' => ?_,
        fun k job hop' => (by cases hop')⟩
      · rw [Globals.slot?, List.getElem?_append_left hlt]
        exact hy
      · cases hop'
        exact absurd hlt (Nat.lt_irrefl _)

/-- Phase A of a rescan whose list has the device. -/
theorem Old.start {devs : List Dev} (hx : s.slot? i = some x)
    (hback : ∃ d ∈ devs, x.serial = d.serial) :
    Old s i x ((Op.look devs).exec cfg s []) where
  trace := List.prefix_rfl
  look devs' := by simp [Op.exec]
  slot := by
    refine ⟨x.look devs, ?_, ⟨rfl, rfl, rfl, rfl, .inl rfl⟩, ?_, rfl, .inl rfl⟩
    · simp only [Op.exec, Globals.slot?, phaseA, List.getElem?_map]
      rw [show s.slots[i]? = some x from hx]
      rfl
    · simpa [Slot.look] using hback
  work op hop := by cases hop
  giveUp j job hop := by cases hop

/-- A slot that was there before a rescan is as ready after it, and has its stream base
unless a command has failed. -/
theorem rescanOnce_old {devs : List Dev} (hx : s.slot? i = some x)
    (hback : ∃ d ∈ devs.take 64, x.serial = d.serial) :
    ∃ y, (rescanOnce cfg (some devs) s).slot? i = some y ∧ x.Same y ∧ y.present = true ∧
      y.ready = x.ready ∧
      (y.streamBase = x.streamBase ∨ Globals.Failed s (rescanOnce cfg (some devs) s)) := by
  have hgo := @rescan_whole cfg (some devs) s
  have hold := hgo.keeps (I := fun t => t = ⟨s, none, [.look (devs.take 64)]⟩ ∨
    Old s i x t) (fun t t' ht hstep => ?_) (.inl rfl)
  · rcases hold with hstart | hold
    · have htodo := congrArg Thread.todo hstart
      cases htodo
    · exact hold.slot
  · rcases ht with rfl | ht
    · exact .inr (Option.some.inj hstep ▸ Old.start hx hback)
    · exact .inr (ht.step hstep)

variable (cfg)

/-- **What plugging in again repairs.** When the device of a slot is in the list of a
rescan whose commands all succeed, the slot is there, ready and with its stream range
afterwards if and only if it was ready before and had not lost the range. -/
theorem replugged_iff (as : List AgentAct) {s s' : Globals}
    (hrun : (agentLts cfg).run (agentLts cfg).init as = some s) {i : Nat} {slot : Slot}
    (hs : s.slot? i = some slot) {devs : List Dev}
    (hback : ∃ d ∈ devs.take 64, slot.serial = d.serial) {answers : List Bool}
    (hstep : agentStep cfg s (.rescan (some devs) answers) = some s')
    (hok : ∀ c ∈ s'.trace.drop s.trace.length, c.2 = true) :
    (∃ slot', s'.slot? i = some slot' ∧ slot'.present = true ∧ slot'.ready = true ∧
      (cfg.noStream = false → slot'.streamBase = streamBase + streamCount * slot'.idx)) ↔
    slot.ready = true ∧ (cfg.noStream = true ∨ slot.streamBase ≠ 0) := by
  have hat := (inv_reachable ⟨as, hrun⟩).slot i slot hs
  obtain rfl := agentStep_rescan cfg hstep
  obtain ⟨y, hy, hsame, hp, hr, hbase⟩ :=
    @rescanOnce_old cfg { s with answers := answers } i slot devs hs hback
  have hbase' : y.streamBase = slot.streamBase := by
    refine hbase.resolve_right ?_
    rintro ⟨c, hc, hfail⟩
    rw [hok c hc] at hfail
    cases hfail
  constructor
  · rintro ⟨z, hz, -, hready, hz'⟩
    obtain rfl : y = z := Option.some.inj (hy.symm.trans hz)
    refine ⟨hr ▸ hready, ?_⟩
    by_cases hno : cfg.noStream = true
    · exact .inl hno
    · right
      have hpos := hz' (by simpa using hno)
      rw [← hbase', hpos]
      simp only [streamBase, streamCount]
      omega
  · rintro ⟨hready, hstreams⟩
    refine ⟨y, hy, hp, hr.trans hready, fun hno => ?_⟩
    have hne : slot.streamBase ≠ 0 := hstreams.resolve_left (by simp [hno])
    obtain ⟨-, hport⟩ := hat.streamBase.resolve_left hne
    rw [hbase', hport, hsame.idx, hat.idx]
    simp only [streamPort, streamCount]
    omega

/-- A rescan finds the device, with these answers, and the next one does not. -/
def seenOnce (answers : List Bool) : List AgentAct :=
  [.start [true], .rescan (some [emulator]) answers, .rescan (some []) []]

theorem replugged_iff_ready : ∃ s s', (agentLts (.default [])).run (agentLts (.default [])).init
      (seenOnce (List.replicate 30 true)) = some s ∧
    agentStep (.default []) s (.rescan (some [emulator]) (List.replicate 30 true)) = some s' ∧
    ∃ slot', s'.slot? 0 = some slot' ∧ slot'.present = true ∧ slot'.ready = true ∧
      (Config.noStream (.default []) = false →
        slot'.streamBase = streamBase + streamCount * slot'.idx) :=
  ⟨_, _, rfl, rfl, (replugged_iff (.default []) (seenOnce (List.replicate 30 true)) rfl rfl
    (by decide) rfl (by decide)).mpr ⟨rfl, .inr (by decide)⟩⟩

/-- A first set-up that fails is never made up for. -/
theorem replugged_dead :
    ¬∀ (cfg : Config) (as : List AgentAct) (s s' : Globals) (i : Nat) (slot : Slot)
      (devs : List Dev) (answers : List Bool),
      (agentLts cfg).run (agentLts cfg).init as = some s → s.slot? i = some slot →
        slot.present = false → (∃ d ∈ devs.take 64, slot.serial = d.serial) →
        agentStep cfg s (.rescan (some devs) answers) = some s' → (∀ b ∈ answers, b = true) →
        (∀ c ∈ s'.trace.drop s.trace.length, c.2 = true) →
        ∃ slot', s'.slot? i = some slot' ∧ slot'.present = true ∧ slot'.ready = true ∧
          (cfg.noStream = false → slot'.streamBase = streamBase + streamCount * slot'.idx) := by
  intro h
  obtain ⟨slot', hs', -, hready, -⟩ := h (.default []) (seenOnce []) _ _ 0 _ [emulator]
    (List.replicate 30 true) rfl rfl rfl (by decide) rfl (by decide) (by decide)
  cases hs'
  cases hready

end RigControl.Agent
