import RigControl.Agent.Rescan

/-!
# A rescan as its steps

The steps of the rescan thread, run to the end, are `rescanOnce`: each function of
`discovery.c` is a stretch of steps, and the stretches follow one another
(`rescan_whole`). So every run of the agent by whole rescans is a run of the thread
(`agent_run_whole`), and what holds of the thread in every state holds of the agent.
-/

namespace RigControl.Agent

open RigControl.Lib

variable (cfg : Config)

/-- The thread gets from one state to the other by itself. -/
def Goes (t t' : Thread) : Prop :=
  ∃ n, (threadLts cfg).run t (List.replicate n .step) = some t'

variable {cfg}

theorem Goes.refl (t : Thread) : Goes cfg t t := ⟨0, rfl⟩

theorem Goes.trans {t u v : Thread} (h : Goes cfg t u) (h' : Goes cfg u v) : Goes cfg t v := by
  obtain ⟨m, hm⟩ := h
  obtain ⟨n, hn⟩ := h'
  refine ⟨m + n, ?_⟩
  rw [List.replicate_add]
  exact Lts.run_append.mpr ⟨u, hm, hn⟩

theorem Goes.next {t u : Thread} (h : t.next cfg = some u) : Goes cfg t u :=
  ⟨1, Lts.run_cons.mpr ⟨u, h, rfl⟩⟩

theorem Goes.keeps {I : Thread → Prop} (hI : ∀ t t', I t → t.next cfg = some t' → I t')
    {t t' : Thread} (h : Goes cfg t t') (ht : I t) : I t' := by
  obtain ⟨n, hn⟩ := h
  induction n generalizing t with
  | zero =>
    obtain rfl : t = t' := by simpa [Lts.run] using hn
    exact ht
  | succ n ih =>
    obtain ⟨u, hu, hn⟩ := Lts.run_cons.mp hn
    exact ih (hI t u ht hu) hn

/-- A step of the work on a slot. -/
theorem Goes.work {s : Globals} {i : Nat} {op : SlotOp} {slot : Slot} (hs : s.slot? i = some slot)
    (todo : List Op) :
    Goes cfg ⟨s, some (i, op), todo⟩
      ⟨(op.exec cfg i slot s).1, (op.exec cfg i slot s).2.map fun op => (i, op), todo⟩ := by
  refine Goes.next ?_
  unfold Thread.next
  simp [hs]

theorem Goes.op (s : Globals) (op : Op) (todo : List Op) :
    Goes cfg ⟨s, none, op :: todo⟩ (op.exec cfg s todo) :=
  Goes.next rfl

variable {s s' : Globals} {i : Nat} {slot : Slot} {ok : Bool}

theorem slot?_of_slots (hs : s.slot? i = some slot) (h : s'.slots = s.slots) :
    s'.slot? i = some slot := by
  rw [Globals.slot?, h]
  exact hs

theorem goes_forward (hs : s.slot? i = some slot) (job : Job) (again : Bool) (todo : List Op)
    (h : forwardAndVerify cfg slot.serial (slot.adbPort + locOffset) s = (s', ok)) :
    Goes cfg ⟨s, some (i, .forward job again), todo⟩
      ⟨s', (if ok then some (.setDst job) else notReached job again).map fun op => (i, op),
        todo⟩ := by
  have hstep := @Goes.work cfg s i (.forward job again) slot hs todo
  rcases hadb : adbForward slot.serial (slot.adbPort + locOffset) cfg.tcpipPort s with ⟨s1, ok1⟩
  simp only [SlotOp.exec, hadb] at hstep
  simp only [forwardAndVerify, hadb] at h
  cases ok1 with
  | true =>
    have hs1 : s1.slot? i = some slot := by
      refine slot?_of_slots hs ?_
      rw [← adbForward_slots slot.serial (slot.adbPort + locOffset) cfg.tcpipPort s, hadb]
    have hverify := @Goes.work cfg s1 i (.verify job again) slot hs1 todo
    simp only [if_true] at h
    simp only [SlotOp.exec, h] at hverify
    exact hstep.trans hverify
  | false =>
    cases h
    exact hstep

theorem goes_reach (hs : s.slot? i = some slot) (job : Job) (todo : List Op)
    (h : reachGuest cfg slot.serial (slot.adbPort + locOffset) s = (s', ok)) :
    Goes cfg ⟨s, some (i, .forward job false), todo⟩
      ⟨s', if ok then some (i, .setDst job) else none, todo⟩ := by
  unfold reachGuest at h
  rcases hfirst : forwardAndVerify cfg slot.serial (slot.adbPort + locOffset) s with ⟨s1, ok1⟩
  have hgo := goes_forward hs job false todo hfirst
  have hs1 : s1.slot? i = some slot := by
    refine slot?_of_slots hs ?_
    rw [← forwardAndVerify_slots cfg slot.serial (slot.adbPort + locOffset) s, hfirst]
  rw [hfirst] at h
  cases ok1 with
  | true =>
    cases h
    exact hgo
  | false =>
    -- `adb tcpip`, and once more
    simp only [Bool.false_eq_true, if_false] at h
    have htcpip := @Goes.work cfg s1 i (.tcpip job) slot hs1 todo
    have hs2 : (runCmd (.tcpip slot.serial cfg.tcpipPort) s1).1.slot? i = some slot := hs1
    have hsecond := goes_forward hs2 job true todo h
    refine hgo.trans (htcpip.trans ?_)
    cases ok <;> exact hsecond

/-- The stream forwards from `k` on. -/
theorem goes_streams (job : Job) (todo : List Op) (m k : Nat) (hk : k + m = streamCount)
    (hm : 0 < m) {cur : Slot} (hs : s.slot? i = some cur) (hserial : cur.serial = slot.serial)
    (hbase : cur.streamBase = slot.streamBase) :
    Goes cfg ⟨s, some (i, .stream job k), todo⟩
      ⟨streamForwards i slot (List.range' k m) s,
        (afterForwards cfg job).map fun op => (i, op), todo⟩ := by
  induction m generalizing k s with
  | zero => exact absurd hm (Nat.lt_irrefl 0)
  | succ m ih =>
    have hstep := @Goes.work cfg s i (.stream job k) cur hs todo
    have hslots := adbForward_slots slot.serial (slot.streamBase + k + locOffset) (streamBase + k) s
    have hs' := slot?_of_slots hs hslots
    simp only [SlotOp.exec, hserial, hbase] at hstep
    simp only [List.range'_succ, streamForwards]
    split
    · rename_i hok
      simp only [hok, Bool.not_true, Bool.false_eq_true, if_false] at hstep
      by_cases hlast : k + 1 < streamCount
      · rw [if_pos hlast] at hstep
        exact hstep.trans (ih (k + 1) (by omega) (by omega) hs')
      · rw [if_neg hlast] at hstep
        obtain rfl : m = 0 := by omega
        exact hstep
    · rename_i hok
      simp only [Bool.not_eq_true] at hok
      simp only [hok, Bool.not_false, if_true] at hstep
      exact hstep.trans (@Goes.work cfg _ i (.giveUp job) cur hs' todo)

theorem goes_afterDst (job : Job) (todo : List Op) {cur : Slot} (hs : s.slot? i = some cur)
    (hserial : cur.serial = slot.serial) (hbase : cur.streamBase = slot.streamBase) :
    Goes cfg ⟨s, (afterDst cfg job slot).map fun op => (i, op), todo⟩
      ⟨if slot.streamBase ≠ 0 then streamForwards i slot (List.range streamCount) s else s,
        (afterForwards cfg job).map fun op => (i, op), todo⟩ := by
  unfold afterDst
  split
  · rw [List.range_eq_range']
    exact goes_streams job todo streamCount 0 (Nat.zero_add _) (by decide) hs hserial hbase
  · exact .refl _

theorem goes_establish (hs : s.slot? i = some slot) (job : Job) (todo : List Op)
    (h : establishForwards cfg i s = (s', ok)) :
    Goes cfg ⟨s, some (i, .establish job), todo⟩
      ⟨s', if ok then (afterForwards cfg job).map fun op => (i, op) else none, todo⟩ := by
  have hfinish : ∀ (s1 : Globals) (cur : Slot), s1.slot? i = some cur → cur.serial = slot.serial →
      cur.streamBase = slot.streamBase →
      (if slot.streamBase ≠ 0 then (streamForwards i slot (List.range streamCount) s1, true)
        else (s1, true)) = (s', ok) →
      Goes cfg ⟨s1, (afterDst cfg job slot).map fun op => (i, op), todo⟩
        ⟨s', if ok then (afterForwards cfg job).map fun op => (i, op) else none, todo⟩ := by
    intro s1 cur hs1 hserial hbase heq
    have hgo := @goes_afterDst cfg s1 i slot job todo cur hs1 hserial hbase
    by_cases hb : slot.streamBase ≠ 0
    · rw [if_pos hb] at heq hgo
      cases heq
      exact hgo
    · rw [if_neg hb] at heq hgo
      cases heq
      exact hgo
  have hstep := @Goes.work cfg s i (.establish job) slot hs todo
  simp only [establishForwards, hs, establishAdb] at h
  simp only [SlotOp.exec] at hstep
  by_cases hw : slot.kind ≠ .wireless
  · rw [if_pos hw] at h hstep
    rcases hreach : reachGuest cfg slot.serial (slot.adbPort + locOffset) s with ⟨s1, ok1⟩
    have hgo := goes_reach hs job todo hreach
    have hs1 : s1.slot? i = some slot := by
      refine slot?_of_slots hs ?_
      rw [← reachGuest_slots cfg slot.serial (slot.adbPort + locOffset) s, hreach]
    rw [hreach] at h
    cases ok1 with
    | false =>
      cases h
      exact hstep.trans hgo
    | true =>
      refine (hstep.trans hgo).trans ((@Goes.work cfg s1 i (.setDst job) slot hs1 todo).trans ?_)
      have hs2 := (setDst_steps cfg (fun _ => True) hs1 loopback (slot.adbPort + locOffset)).2
      exact hfinish _ _ hs2 rfl rfl h
  · rw [if_neg hw] at h hstep
    cases hd : wirelessDst slot.serial with
    | none =>
      rw [hd] at h hstep
      cases h
      exact hstep
    | some dst =>
      obtain ⟨host, port⟩ := dst
      rw [hd] at h hstep
      have hs2 := (setDst_steps cfg (fun _ => True) hs host port).2
      exact hstep.trans (hfinish _ _ hs2 rfl rfl h)

/-! ## Binding -/

/-- `add_listener`, over the addresses that are left. -/
theorem goes_listen (hs : s.slot? i = some slot) (k : Option Nat) (todo : List Op)
    (ips : List CString) (made : Nat) {r : Globals × Nat}
    (h : ips.foldl (fun (p : Globals × Nat) ip =>
      addListenerOn (slot.listener i ip k) p.2 p.1) (s, made) = r) :
    Goes cfg ⟨s, some (i, .listen k ips made), todo⟩
        ⟨r.1, (afterListen cfg slot r.2 k).map fun op => (i, op), todo⟩ ∧
      r.1.slot? i = some slot := by
  induction ips generalizing s made with
  | nil =>
    subst h
    exact ⟨@Goes.work cfg s i (.listen k [] made) slot hs todo, hs⟩
  | cons ip ips ih =>
    have hs' := slot?_of_slots hs (addListenerOn_slots (slot.listener i ip k) made s)
    have hstep := @Goes.work cfg s i (.listen k (ip :: ips) made) slot hs todo
    obtain ⟨hgo, hslot⟩ := ih hs' (addListenerOn (slot.listener i ip k) made s).2 h
    exact ⟨hstep.trans hgo, hslot⟩

theorem goes_listenStreams (todo : List Op) (m k : Nat) (hk : k + m = streamCount) (hm : 0 < m)
    (hs : s.slot? i = some slot) {s' : Globals}
    (h : (List.range' k m).foldl (fun s (k : Nat) =>
      (addListener cfg (slot.streamBase + k) loopback (slot.streamBase + k + locOffset)
        (some (i, k)) false s).1) s = s') :
    Goes cfg ⟨s, some (i, .listen (some k) cfg.bindIps 0), todo⟩ ⟨s', some (i, .ready), todo⟩ ∧
      s'.slot? i = some slot := by
  induction m generalizing k s with
  | zero => exact absurd hm (Nat.lt_irrefl 0)
  | succ m ih =>
    obtain ⟨hgo, hs1⟩ := @goes_listen cfg s i slot hs (some k) todo cfg.bindIps 0 _ rfl
    rw [List.range'_succ, List.foldl_cons] at h
    simp only [afterListen] at hgo
    by_cases hlast : k + 1 < streamCount
    · rw [if_pos hlast] at hgo
      obtain ⟨hrest, hs'⟩ := ih (k + 1) (by omega) (by omega) hs1 h
      exact ⟨hgo.trans hrest, hs'⟩
    · rw [if_neg hlast] at hgo
      obtain rfl : m = 0 := by omega
      subst h
      exact ⟨hgo, hs1⟩

theorem goes_ready (s : Globals) (hs : s.slot? i = some slot) (todo : List Op) :
    Goes cfg ⟨s, some (i, .ready), todo⟩
      ⟨s.modifySlot i fun slot => { slot with ready := true }, none, todo⟩ :=
  @Goes.work cfg s i .ready slot hs todo

/-- From the first bind of a slot to the end of its set-up. -/
theorem goes_bind (hs : s.slot? i = some slot) (todo : List Op)
    (h : bindListeners cfg i s = (s', ok)) :
    Goes cfg ⟨s, some (i, .listen none cfg.bindIps 0), todo⟩
      ⟨if ok then s'.modifySlot i fun slot => { slot with ready := true } else s', none, todo⟩ := by
  obtain ⟨hgo, hs1⟩ := @goes_listen cfg s i slot hs none todo cfg.bindIps 0 _ rfl
  simp only [bindListeners, hs] at h
  simp only [afterListen] at hgo
  have hadb : addListener cfg slot.adbPort slot.adbDstHost slot.adbDstPort none false s =
      ((cfg.bindIps.foldl (fun (p : Globals × Nat) ip =>
        addListenerOn (slot.listener i ip none) p.2 p.1) (s, 0)).1,
      decide (0 < (cfg.bindIps.foldl (fun (p : Globals × Nat) ip =>
        addListenerOn (slot.listener i ip none) p.2 p.1) (s, 0)).2)) := rfl
  rw [hadb] at h
  generalize cfg.bindIps.foldl (fun (p : Globals × Nat) ip =>
    addListenerOn (slot.listener i ip none) p.2 p.1) (s, 0) = r at h hgo hs1
  by_cases hmade : r.2 = 0
  · simp only [hmade, Nat.lt_irrefl, decide_false, Bool.not_false, if_true] at h hgo
    cases h
    exact hgo
  · have hpos : 0 < r.2 := Nat.pos_of_ne_zero hmade
    simp only [hpos, decide_true, Bool.not_true, Bool.false_eq_true, if_false] at h
    rw [if_neg hmade] at hgo
    by_cases hbase : slot.streamBase ≠ 0
    · rw [if_pos hbase] at h hgo
      cases h
      obtain ⟨hstreams, hs2⟩ := goes_listenStreams todo streamCount 0 (Nat.zero_add _)
        (by decide) hs1 rfl
      exact (hgo.trans hstreams).trans (goes_ready _ hs2 todo)
    · rw [if_neg hbase] at h hgo
      cases h
      exact hgo.trans (goes_ready r.1 hs1 todo)

theorem goes_setup (hs : s.slot? i = some slot) (todo : List Op) :
    Goes cfg ⟨s, some (i, .establish .setup), todo⟩ ⟨slotSetupNew cfg i s, none, todo⟩ := by
  rcases hest : establishForwards cfg i s with ⟨s1, ok1⟩
  have hgo := goes_establish hs .setup todo hest
  simp only [slotSetupNew, hest]
  cases ok1 with
  | false => exact hgo
  | true =>
    obtain ⟨-, cur, hcur, -⟩ := establishForwards_steps cfg (fun _ => True) hs
    rw [hest] at hcur
    rcases hbind : bindListeners cfg i s1 with ⟨s2, ok2⟩
    have hrest := goes_bind hcur todo hbind
    refine hgo.trans ?_
    cases ok2 <;> exact hrest

/-! ## The three phases -/

/-- Each turn of the loop of phase B1 comes back to its head. -/
theorem goes_turns (fuel : Nat) (s : Globals) (todo : List Op) :
    Goes cfg ⟨s, none, .refresh :: todo⟩ ⟨refreshLoop cfg fuel s, none, .refresh :: todo⟩ := by
  induction fuel generalizing s with
  | zero => exact .refl _
  | succ fuel ih =>
    unfold refreshLoop
    have hstep := @Goes.op cfg s .refresh todo
    simp only [Op.exec] at hstep
    cases hfind : s.slots.findIdx? (·.reappeared) with
    | none => exact .refl _
    | some i =>
      rw [hfind] at hstep
      have hlt : i < s.slots.length := (List.findIdx?_eq_some_iff_getElem.mp hfind).1
      have hs : (s.modifySlot i fun slot => { slot with reappeared := false }).slot? i =
          some { s.slots[i] with reappeared := false } := by
        rw [slot?_modifySlot, Globals.slot?, List.getElem?_eq_getElem hlt]
        rfl
      rcases hest : establishForwards cfg i
        (s.modifySlot i fun slot => { slot with reappeared := false }) with ⟨s1, ok1⟩
      have hgo := goes_establish hs .refresh (.refresh :: todo) hest
      refine hstep.trans (Goes.trans ?_ (ih _))
      simp only [hest]
      cases ok1 <;> exact hgo

/-- With a turn for each slot the loop comes to its end. -/
theorem goes_refreshLoop (s : Globals) (todo : List Op) :
    Goes cfg ⟨s, none, .refresh :: todo⟩ ⟨refreshLoop cfg s.slots.length s, none, todo⟩ := by
  have hend := @Goes.op cfg (refreshLoop cfg s.slots.length s) .refresh todo
  have hnone : (refreshLoop cfg s.slots.length s).slots.findIdx? (·.reappeared) = none :=
    List.findIdx?_eq_none_iff.mpr (refreshLoop_all cfg s)
  simp only [Op.exec, hnone] at hend
  exact (goes_turns s.slots.length s todo).trans hend

theorem goes_place (s : Globals) (d : Dev) (todo : List Op) :
    Goes cfg ⟨s, none, .place d :: todo⟩ ⟨phaseB2 cfg s d, none, todo⟩ := by
  have hstep := @Goes.op cfg s (.place d) todo
  simp only [Op.exec] at hstep
  unfold phaseB2
  split at hstep
  · rename_i hold
    rw [if_pos hold]
    exact hstep
  · rename_i hnew
    rw [if_neg hnew]
    split at hstep
    · rename_i hfull
      rw [if_pos hfull]
      exact hstep
    · rename_i hroom
      rw [if_neg hroom]
      have hs : Globals.slot? { s with slots := s.slots ++ [newSlot cfg d s.slots.length] }
          s.slots.length = some (newSlot cfg d s.slots.length) := by simp [Globals.slot?]
      exact hstep.trans (goes_setup hs todo)

theorem goes_places (ds : List Dev) (s : Globals) :
    Goes cfg ⟨s, none, ds.map .place⟩ ⟨ds.foldl (phaseB2 cfg) s, none, []⟩ := by
  induction ds generalizing s with
  | nil => exact .refl _
  | cons d ds ih => exact (goes_place s d _).trans (ih _)

/-- **The steps of a rescan, run to the end, are `rescanOnce`.** -/
theorem rescan_whole (devs : Option (List Dev)) (s : Globals) :
    Goes cfg ⟨s, none, rescanOps devs⟩ ⟨rescanOnce cfg devs s, none, []⟩ := by
  cases devs with
  | none => exact .refl _
  | some devs =>
    have hlook := @Goes.op cfg s (.look (devs.take 64)) []
    simp only [Op.exec, List.append_nil] at hlook
    exact hlook.trans ((goes_refreshLoop _ _).trans (goes_places _ _))

/-- A run of the agent by whole rescans is a run of the thread. -/
theorem agent_run_whole (as : List AgentAct) {s : Globals}
    (h : (agentLts cfg).run (agentLts cfg).init as = some s) :
    ∃ bs, (threadLts cfg).run (threadLts cfg).init bs = some ⟨s, none, []⟩ := by
  refine Lts.invariant (I := fun s => ∃ bs, (threadLts cfg).run (threadLts cfg).init bs =
    some ⟨s, none, []⟩) (fun s a s' hs hstep => ?_) ⟨[], rfl⟩ h
  obtain ⟨bs, hbs⟩ := hs
  cases a with
  | start answers =>
    refine ⟨bs ++ [.start answers], Lts.run_append.mpr ⟨_, hbs, Lts.run_cons.mpr ⟨_, ?_, rfl⟩⟩⟩
    exact Option.map_eq_some_iff.mpr ⟨s', hstep, rfl⟩
  | rescan devs answers =>
    simp only [agentLts, agentStep] at hstep
    split at hstep
    · rename_i hstarted
      cases hstep
      obtain ⟨n, hn⟩ := @rescan_whole cfg devs { s with answers := answers }
      refine ⟨bs ++ .rescan devs answers :: List.replicate n .step,
        Lts.run_append.mpr ⟨_, hbs, Lts.run_cons.mpr ⟨_, ?_, hn⟩⟩⟩
      simp [threadLts, threadStep, hstarted]
    · cases hstep

end RigControl.Agent
