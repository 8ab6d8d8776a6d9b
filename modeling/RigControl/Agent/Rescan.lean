import RigControl.Agent.Routing

/-!
# The rescan thread, step by step

`rescan_once` with every section under `g_lock`, every `adb` call and every write to a
slot as a step of its own, so that the discovery port can be asked between any two of
them: it only reads the tables, and what it may see are the tables of every state
reached. `rescan_whole` says that the steps of a rescan, run to the end, are
`rescanOnce`.
-/

namespace RigControl.Agent

open RigControl.Lib

/-- What `establish_forwards` is called for: a slot that has come back, or a new one. -/
inductive Job where
  | refresh | setup
  deriving DecidableEq, Repr

/-- Where the thread is in the work on one slot. -/
inductive SlotOp where
  | establish (job : Job)
  | forward (job : Job) (again : Bool)
  | verify (job : Job) (again : Bool)
  | tcpip (job : Job)
  | setDst (job : Job)
  | stream (job : Job) (k : Nat)
  | giveUp (job : Job)
  /-- `add_listener` for the adb port or for stream port `k`: the addresses that are
  left, and the listeners made so far. -/
  | listen (k : Option Nat) (ips : List CString) (made : Nat)
  | ready
  deriving DecidableEq, Repr

/-- What is left of the rescan apart from it. -/
inductive Op where
  /-- Phase A. -/
  | look (devs : List Dev)
  /-- The head of the loop of phase B1. -/
  | refresh
  /-- Phase B2 for one device, up to `slot_setup_new`. -/
  | place (d : Dev)
  deriving DecidableEq

variable (cfg : Config)

/-- After `establish_forwards` has succeeded. -/
def afterForwards : Job → Option SlotOp
  | .refresh => none
  | .setup => some (.listen none cfg.bindIps 0)

def afterDst (job : Job) (slot : Slot) : Option SlotOp :=
  if slot.streamBase ≠ 0 then some (.stream job 0) else afterForwards cfg job

/-- The adbd of the guest was not reached: once, `adb tcpip` is tried. -/
def notReached (job : Job) (again : Bool) : Option SlotOp :=
  if again then none else some (.tcpip job)

/-- The listener of a slot for the adb port, or for stream port `k`. -/
def Slot.listener (slot : Slot) (i : Nat) (ip : CString) : Option Nat → Listener
  | none => ⟨ip, slot.adbPort, slot.adbDstHost, slot.adbDstPort, none, false⟩
  | some k =>
    ⟨ip, slot.streamBase + k, loopback, slot.streamBase + k + locOffset, some (i, k), false⟩

/-- `add_listener` is done: only for the adb port its outcome counts. -/
def afterListen (slot : Slot) (made : Nat) : Option Nat → Option SlotOp
  | none =>
    if made = 0 then none
    else if slot.streamBase ≠ 0 then some (.listen (some 0) cfg.bindIps 0)
    else some .ready
  | some k =>
    if k + 1 < streamCount then some (.listen (some (k + 1)) cfg.bindIps 0) else some .ready

/-- One step of the work on the slot `i`, and where the thread is then. -/
def SlotOp.exec (i : Nat) (slot : Slot) (s : Globals) : SlotOp → Globals × Option SlotOp
  | .establish job =>
    if slot.kind ≠ .wireless then (s, some (.forward job false))
    else
      match wirelessDst slot.serial with
      | some (host, port) => (Agent.setDst i host port s, afterDst cfg job slot)
      | none => (s, none)
  | .forward job again =>
    let (s, ok) := adbForward slot.serial (slot.adbPort + locOffset) cfg.tcpipPort s
    (s, if ok then some (.verify job again) else notReached job again)
  | .verify job again =>
    let (s, ok) := verifyGuestAdb (slot.adbPort + locOffset) s
    (s, if ok then some (.setDst job) else notReached job again)
  | .tcpip job => ((runCmd (.tcpip slot.serial cfg.tcpipPort) s).1, some (.forward job true))
  | .setDst job => (Agent.setDst i loopback (slot.adbPort + locOffset) s, afterDst cfg job slot)
  | .stream job k =>
    let (s, ok) := adbForward slot.serial (slot.streamBase + k + locOffset) (streamBase + k) s
    (s,
      if !ok then some (.giveUp job)
      else if k + 1 < streamCount then some (.stream job (k + 1))
      else afterForwards cfg job)
  | .giveUp job =>
    (s.modifySlot i fun slot => { slot with streamBase := 0 }, afterForwards cfg job)
  | .listen k [] made => (s, afterListen cfg slot made k)
  | .listen k (ip :: ips) made =>
    let (s, made) := addListenerOn (slot.listener i ip k) made s
    (s, some (.listen k ips made))
  | .ready => (s.modifySlot i fun slot => { slot with ready := true }, none)

/-- A step of `slot_setup_new`. -/
def SlotOp.setsUp : SlotOp → Bool
  | .establish job | .forward job _ | .verify job _ | .tcpip job | .setDst job | .stream job _
  | .giveUp job => job = .setup
  | .listen .. | .ready => true

structure Thread where
  tables : Globals
  work : Option (Nat × SlotOp)
  todo : List Op
  deriving DecidableEq

/-- One step of the rescan apart from the work on a slot. -/
def Op.exec (s : Globals) (todo : List Op) : Op → Thread
  | .look devs => ⟨phaseA devs s, none, .refresh :: devs.map .place ++ todo⟩
  | .refresh =>
    match s.slots.findIdx? (·.reappeared) with
    | none => ⟨s, none, todo⟩
    | some i =>
      ⟨s.modifySlot i fun slot => { slot with reappeared := false },
        some (i, .establish .refresh), .refresh :: todo⟩
  | .place d =>
    if s.slots.any fun slot => slot.serial = d.serial then ⟨s, none, todo⟩
    else if maxSlots ≤ s.slots.length then ⟨{ s with warned := true }, none, todo⟩
    else
      let i := s.slots.length
      ⟨{ s with slots := s.slots ++ [newSlot cfg d i] }, some (i, .establish .setup), todo⟩

inductive ThreadAct where
  /-- `main` opens the discovery port. -/
  | start (answers : List Bool)
  /-- `rescan_once` begins, after `list_devices`. -/
  | rescan (devs : Option (List Dev)) (answers : List Bool)
  /-- The thread takes its next step. -/
  | step
  deriving DecidableEq

def Thread.next (t : Thread) : Option Thread :=
  match t.work with
  | some (i, op) =>
    match t.tables.slot? i with
    | some slot =>
      let (s, op') := op.exec cfg i slot t.tables
      some ⟨s, op'.map fun op => (i, op), t.todo⟩
    | none => none
  | none =>
    match t.todo with
    | [] => none
    | op :: todo => some (op.exec cfg t.tables todo)

/-- What a rescan has to do with the answer of `list_devices`. -/
def rescanOps : Option (List Dev) → List Op
  | none => []
  | some devs => [.look (devs.take 64)]

def threadStep (t : Thread) : ThreadAct → Option Thread
  | .start answers => (agentStep cfg t.tables (.start answers)).map fun s => ⟨s, none, []⟩
  | .rescan devs answers =>
    if t.tables.started ∧ t.work = none ∧ t.todo = [] then
      some ⟨{ t.tables with answers := answers }, none, rescanOps devs⟩
    else none
  | .step => t.next cfg

def threadLts : Lts Thread ThreadAct := { init := ⟨.empty, none, []⟩, step := threadStep cfg }

theorem threadStep_rescan {t t' : Thread} {devs : Option (List Dev)} {answers : List Bool}
    (h : threadStep cfg t (.rescan devs answers) = some t') :
    t' = ⟨{ t.tables with answers := answers }, none, rescanOps devs⟩ := by
  simp only [threadStep] at h
  split at h
  · exact (Option.some.inj h).symm
  · cases h

/-! ## What a step keeps -/

/-- Commands leave slots and listeners alone. -/
structure Ran (s s' : Globals) : Prop where
  slots : s'.slots = s.slots
  listeners : s'.listeners = s.listeners
  trace : s.trace <+: s'.trace

/-- No slot is added, and none changes in presence or readiness. -/
structure Kept (s s' : Globals) : Prop where
  length : s'.slots.length = s.slots.length
  slot : ∀ i x, s.slot? i = some x →
    ∃ x', s'.slot? i = some x' ∧ x.Same x' ∧ x'.present = x.present ∧ x'.ready = x.ready
  listeners : s.listeners <+: s'.listeners
  trace : s.trace <+: s'.trace

theorem Ran.trans {s s' s'' : Globals} (h : Ran s s') (h' : Ran s' s'') : Ran s s'' :=
  ⟨h'.slots.trans h.slots, h'.listeners.trans h.listeners, h.trace.trans h'.trace⟩

theorem Ran.kept {s s' : Globals} (h : Ran s s') : Kept s s' where
  length := by rw [h.slots]
  slot i x hx := ⟨x, by rw [Globals.slot?, h.slots]; exact hx, .refl x, rfl, rfl⟩
  listeners := h.listeners ▸ List.prefix_rfl
  trace := h.trace

/-- A slot after the step is one from before. -/
theorem Kept.back {s s' : Globals} (h : Kept s s') {i : Nat} {x' : Slot}
    (hx' : s'.slot? i = some x') :
    ∃ x, s.slot? i = some x ∧ x.Same x' ∧ x'.present = x.present ∧ x'.ready = x.ready := by
  have hlt : i < s.slots.length := by
    rw [← h.length]
    exact (List.getElem?_eq_some_iff.mp hx').1
  obtain ⟨y, hy, hsame⟩ := h.slot i _ (List.getElem?_eq_getElem hlt)
  rw [hx'] at hy
  cases hy
  exact ⟨_, List.getElem?_eq_getElem hlt, hsame⟩

theorem Kept.refl (s : Globals) : Kept s s := Ran.kept ⟨rfl, rfl, List.prefix_rfl⟩

theorem Kept.trans {s s' s'' : Globals} (h : Kept s s') (h' : Kept s' s'') : Kept s s'' where
  length := h'.length.trans h.length
  slot i x hx := by
    obtain ⟨y, hy, hxy, hpresent, hready⟩ := h.slot i x hx
    obtain ⟨z, hz, hyz, hpresent', hready'⟩ := h'.slot i y hy
    exact ⟨z, hz, hxy.trans hyz, hpresent'.trans hpresent, hready'.trans hready⟩
  listeners := h.listeners.trans h'.listeners
  trace := h.trace.trans h'.trace

theorem modifySlot_kept (s : Globals) (i : Nat) {f : Slot → Slot} (hf : ∀ x : Slot,
    x.Same (f x) ∧ (f x).present = x.present ∧ (f x).ready = x.ready) : Kept s (s.modifySlot i f) where
  length := List.length_modify ..
  slot j x hx := by
    unfold Globals.slot? at hx ⊢
    simp only [Globals.modifySlot, List.getElem?_modify, hx]
    by_cases hij : i = j
    · exact ⟨f x, by simp [hij], hf x⟩
    · exact ⟨x, by simp [hij], .refl x, rfl, rfl⟩
  listeners := List.prefix_rfl
  trace := List.prefix_rfl

theorem clearReappeared_kept (s : Globals) (i : Nat) :
    Kept s (s.modifySlot i fun slot => { slot with reappeared := false }) :=
  modifySlot_kept s i fun _ => ⟨⟨rfl, rfl, rfl, rfl, .inl rfl⟩, rfl, rfl⟩

theorem runCmd_ran (c : AdbCmd) (s : Globals) : Ran s (runCmd c s).1 :=
  ⟨rfl, rfl, List.prefix_append ..⟩

theorem adbForward_ran (serial : CString) (loc dev : Int) (s : Globals) :
    Ran s (adbForward serial loc dev s).1 := by
  have hrun := runCmd_ran (.forward serial loc dev) s
  simp only [adbForward]
  split
  · exact hrun
  · split
    · exact hrun
    · split
      · exact ⟨hrun.slots, hrun.listeners, hrun.trace⟩
      · exact hrun

theorem runCmd_trace (c : AdbCmd) (s : Globals) :
    (runCmd c s).1.trace = s.trace ++ [(c, (runCmd c s).2)] := rfl

/-- The forward is the last command in the trace. -/
theorem adbForward_trace (serial : CString) (loc dev : Int) (s : Globals) :
    (adbForward serial loc dev s).1.trace =
      s.trace ++ [(.forward serial loc dev, (adbForward serial loc dev s).2)] := by
  have htrace := runCmd_trace (.forward serial loc dev) s
  simp only [adbForward]
  split
  · rename_i hok
    rw [htrace]
    simpa using hok
  · rename_i hok
    have hok' : (runCmd (.forward serial loc dev) s).2 = true := by simpa using hok
    split
    · rw [htrace, hok']
    · split <;> rw [htrace, hok']

theorem verifyGuestAdb_ran (loc : Int) (s : Globals) : Ran s (verifyGuestAdb loc s).1 := by
  have hconnect := runCmd_ran (.connect loc) s
  simp only [verifyGuestAdb]
  split
  · exact (hconnect.trans (runCmd_ran (.getState loc) _)).trans (runCmd_ran (.disconnect loc) _)
  · exact hconnect.trans (runCmd_ran (.disconnect loc) _)

theorem addListenerOn_kept (l : Listener) (made : Nat) (s : Globals) :
    Kept s (addListenerOn l made s).1 := by
  have hslot : ∀ i x, s.slot? i = some x →
      ∃ x', s.slot? i = some x' ∧ x.Same x' ∧ x'.present = x.present ∧ x'.ready = x.ready :=
    fun i x hx => ⟨x, hx, .refl x, rfl, rfl⟩
  simp only [addListenerOn]
  split
  · exact ⟨rfl, hslot, List.prefix_rfl, List.prefix_rfl⟩
  · split
    · exact ⟨rfl, hslot, List.prefix_append .., List.prefix_rfl⟩
    · exact ⟨rfl, hslot, List.prefix_rfl, List.prefix_rfl⟩

theorem addListener_kept (pubPort : Int) (host : CString) (port : Int) (group : Option (Nat × Nat))
    (isDiscovery : Bool) (s : Globals) :
    Kept s (addListener cfg pubPort host port group isDiscovery s).1 := by
  have hfold : ∀ (ips : List CString) (p : Globals × Nat), Kept s p.1 →
      Kept s (ips.foldl (fun (p : Globals × Nat) ip =>
        addListenerOn ⟨ip, pubPort, host, port, group, isDiscovery⟩ p.2 p.1) p).1 := by
    intro ips
    induction ips with
    | nil => exact fun _ hp => hp
    | cons ip ips ih => exact fun p hp => ih _ (hp.trans (addListenerOn_kept _ _ _))
  exact hfold cfg.bindIps (s, 0) (.refl s)

/-- `main` only adds listeners. -/
theorem start_kept {s s' : Globals} {answers : List Bool}
    (h : agentStep cfg s (.start answers) = some s') : Kept s s' := by
  obtain rfl := agentStep_start cfg h
  have hopen := addListener_kept cfg cfg.discoveryPort loopback 0 none true
    { s with answers := answers }
  exact ⟨hopen.length, hopen.slot, hopen.listeners, hopen.trace⟩

/-- Only the last step of a set-up makes a slot ready. -/
theorem SlotOp.exec_kept {op : SlotOp} (hop : op ≠ .ready) (i : Nat) (slot : Slot) (s : Globals) :
    Kept s (op.exec cfg i slot s).1 := by
  have hrefl := Kept.refl s
  have hdst : ∀ host port, Kept s (Agent.setDst i host port s) := fun host port =>
    modifySlot_kept s i fun x => ⟨⟨rfl, rfl, rfl, rfl, .inl rfl⟩, rfl, rfl⟩
  cases op with
  | establish job =>
    simp only [SlotOp.exec]
    split
    · exact hrefl
    · split
      · exact hdst ..
      · exact hrefl
  | forward job again => exact (adbForward_ran ..).kept
  | verify job again => exact (verifyGuestAdb_ran ..).kept
  | tcpip job => exact (runCmd_ran ..).kept
  | setDst job => exact hdst ..
  | stream job k => exact (adbForward_ran ..).kept
  | giveUp job => exact modifySlot_kept s i fun x => ⟨⟨rfl, rfl, rfl, rfl, .inr rfl⟩, rfl, rfl⟩
  | listen k ips made =>
    cases ips with
    | nil => exact hrefl
    | cons ip ips => exact addListenerOn_kept ..
  | ready => exact absurd rfl hop

variable {cfg} in
theorem afterForwards_setsUp {job : Job} {op : SlotOp} (h : afterForwards cfg job = some op) :
    job = .setup := by
  cases job with
  | refresh => cases h
  | setup => rfl

variable {cfg} in
theorem afterDst_setsUp {job : Job} {x : Slot} {op : SlotOp} (h : afterDst cfg job x = some op)
    (hop : op.setsUp = true) : job = .setup := by
  unfold afterDst at h
  split at h
  · cases h
    simpa [SlotOp.setsUp] using hop
  · exact afterForwards_setsUp h

theorem notReached_setsUp {job : Job} {again : Bool} {op : SlotOp}
    (h : notReached job again = some op) (hop : op.setsUp = true) : job = .setup := by
  unfold notReached at h
  split at h
  · cases h
  · cases h
    simpa [SlotOp.setsUp] using hop

variable {cfg} in
/-- Only a set-up goes on as a set-up. -/
theorem SlotOp.setsUp_exec {op op' : SlotOp} {i : Nat} {slot : Slot} {s : Globals}
    (hop' : (op.exec cfg i slot s).2 = some op') (h : op'.setsUp = true) : op.setsUp = true := by
  cases op with
  | establish job =>
    simp only [SlotOp.exec] at hop'
    split at hop'
    · cases hop'
      exact h
    · split at hop'
      · simpa [SlotOp.setsUp] using afterDst_setsUp hop' h
      · cases hop'
  | forward job again =>
    simp only [SlotOp.exec] at hop'
    split at hop'
    · cases hop'
      exact h
    · simpa [SlotOp.setsUp] using notReached_setsUp hop' h
  | verify job again =>
    simp only [SlotOp.exec] at hop'
    split at hop'
    · cases hop'
      exact h
    · simpa [SlotOp.setsUp] using notReached_setsUp hop' h
  | tcpip job =>
    cases hop'
    exact h
  | setDst job => simpa [SlotOp.setsUp] using afterDst_setsUp hop' h
  | stream job k =>
    simp only [SlotOp.exec] at hop'
    split at hop'
    · cases hop'
      exact h
    · split at hop'
      · cases hop'
        exact h
      · simpa [SlotOp.setsUp] using afterForwards_setsUp hop'
  | giveUp job => simpa [SlotOp.setsUp] using afterForwards_setsUp hop'
  | listen k ips made => rfl
  | ready => rfl

/-- A slot in the table after one is given was there, or is the new one. -/
theorem slot?_give {s : Globals} {d : Dev} {i : Nat} {x : Slot}
    (hx : (s.slots ++ [newSlot cfg d s.slots.length])[i]? = some x) :
    s.slot? i = some x ∨ x = newSlot cfg d s.slots.length := by
  rcases Nat.lt_or_ge i s.slots.length with hlt | hge
  · rw [List.getElem?_append_left hlt] at hx
    exact .inl hx
  · rw [List.getElem?_append_right hge] at hx
    exact .inr (by simpa using List.mem_of_getElem? hx)

/-- What a step apart from the work on a slot is. -/
inductive OpMove (s : Globals) (todo : List Op) : Op → Thread → Prop where
  | look (devs : List Dev) :
      OpMove s todo (.look devs) ⟨phaseA devs s, none, .refresh :: devs.map .place ++ todo⟩
  /-- No slot has come back, or the device has one already, or there is no room. -/
  | idle (op : Op) (warned : Bool) : OpMove s todo op ⟨{ s with warned := warned }, none, todo⟩
  | refresh (i : Nat) (hback : s.slots.findIdx? (·.reappeared) = some i) :
      OpMove s todo .refresh ⟨s.modifySlot i fun slot => { slot with reappeared := false },
        some (i, .establish .refresh), .refresh :: todo⟩
  | give (d : Dev) (hnew : ∀ slot ∈ s.slots, slot.serial ≠ d.serial)
      (hroom : s.slots.length < maxSlots) :
      OpMove s todo (.place d) ⟨{ s with slots := s.slots ++ [newSlot cfg d s.slots.length] },
        some (s.slots.length, .establish .setup), todo⟩

theorem Op.exec_move (s : Globals) (todo : List Op) (op : Op) :
    OpMove cfg s todo op (op.exec cfg s todo) := by
  cases op with
  | look devs => exact .look devs
  | refresh =>
    simp only [Op.exec]
    split
    · exact .idle .refresh s.warned
    · rename_i i hback
      exact .refresh i hback
  | place d =>
    simp only [Op.exec]
    split
    · exact .idle (.place d) s.warned
    · rename_i hnew
      split
      · exact .idle (.place d) true
      · rename_i hroom
        exact .give d (by simpa using hnew) (Nat.lt_of_not_le hroom)

/-- What a step of the work is. -/
theorem Thread.next_cases {t t' : Thread} (h : t.next cfg = some t') :
    (∃ i op slot, t.work = some (i, op) ∧ t.tables.slot? i = some slot ∧
      t' = ⟨(op.exec cfg i slot t.tables).1, (op.exec cfg i slot t.tables).2.map fun op => (i, op),
        t.todo⟩) ∨
    (∃ op todo, t.work = none ∧ t.todo = op :: todo ∧ OpMove cfg t.tables todo op t') := by
  unfold Thread.next at h
  split at h
  · rename_i i op hwork
    split at h
    · rename_i slot hslot
      exact .inl ⟨i, op, slot, hwork, hslot, (Option.some.inj h).symm⟩
    · cases h
  · rename_i hwork
    split at h
    · cases h
    · rename_i op todo htodo
      cases h
      exact .inr ⟨op, todo, hwork, htodo, op.exec_move cfg t.tables todo⟩

/-- The device of the concrete runs. -/
def emulator : Dev := ⟨['e', 'm', 'u', 'l', 'a', 't', 'o', 'r', '-', '1'], [], by decide⟩

end RigControl.Agent
