import RigControl.Agent.Adb
import RigControl.Lib.Lts

/-!
# Slots

`discovery.c`: `add_listener`, `establish_forwards`, `bind_listeners` and
`rescan_once`, and the part of `main` that opens the discovery port. Only one thread
runs them. A slot is given to a serial and never taken back, so the code keeps
pointers to slots where the model has their indices.
-/

namespace RigControl.Agent

open RigControl.Lib

variable (cfg : Config)

def Globals.slot? (s : Globals) (i : Nat) : Option Slot := s.slots[i]?

def Globals.modifySlot (s : Globals) (i : Nat) (f : Slot → Slot) : Globals :=
  { s with slots := s.slots.modify i f }

/-- `tcp_listen_addr` on one address, and the new entry of `g_ls`; the number of
listeners made goes along. -/
def addListenerOn (l : Listener) (made : Nat) (s : Globals) : Globals × Nat :=
  let (s, bound) := s.answer
  if !bound then (s, made)
  else if s.listeners.length < maxListeners then
    ({ s with listeners := s.listeners ++ [l] }, made + 1)
  else (s, made)

/-- `add_listener`: bind on every address; one that works is enough. -/
def addListener (pubPort : Int) (dstHost : CString) (dstPort : Int) (group : Option (Nat × Nat))
    (isDiscovery : Bool) (s : Globals) : Globals × Bool :=
  let (s, made) := cfg.bindIps.foldl (fun (s, made) ip =>
    addListenerOn ⟨ip, pubPort, dstHost, dstPort, group, isDiscovery⟩ made s) (s, 0)
  (s, 0 < made)

def forwardAndVerify (serial : CString) (loc : Int) (s : Globals) : Globals × Bool :=
  let (s, ok) := adbForward serial loc cfg.tcpipPort s
  if ok then verifyGuestAdb loc s else (s, false)

/-- Forward to the adbd of the guest; if it does not listen, switch it to TCP and try
again. -/
def reachGuest (serial : CString) (loc : Int) (s : Globals) : Globals × Bool :=
  let (s, ok) := forwardAndVerify cfg serial loc s
  if ok then (s, true)
  else
    let (s, _) := runCmd (.tcpip serial cfg.tcpipPort) s
    forwardAndVerify cfg serial loc s

/-- The stream forwards from `k` on; the first that fails gives the range up. -/
def streamForwards (i : Nat) (slot : Slot) : List Nat → Globals → Globals
  | [], s => s
  | k :: ks, s =>
    let (s, ok) := adbForward slot.serial (slot.streamBase + k + locOffset) (streamBase + k) s
    if ok then streamForwards i slot ks s
    else s.modifySlot i fun slot => { slot with streamBase := 0 }

def setDst (i : Nat) (host : CString) (port : Int) (s : Globals) : Globals :=
  s.modifySlot i fun slot => { slot with adbDstHost := host, adbDstPort := port }

/-- The destination of the adb port: a forward, or the address in a wireless serial. -/
def establishAdb (i : Nat) (slot : Slot) (s : Globals) : Globals × Bool :=
  if slot.kind ≠ .wireless then
    let loc := slot.adbPort + locOffset
    let (s, ok) := reachGuest cfg slot.serial loc s
    if ok then (setDst i loopback loc s, true) else (s, false)
  else
    match wirelessDst slot.serial with
    | some (host, port) => (setDst i host port s, true)
    | none => (s, false)

def establishForwards (i : Nat) (s : Globals) : Globals × Bool :=
  match s.slot? i with
  | none => (s, false)
  | some slot =>
    let (s, ok) := establishAdb cfg i slot s
    if !ok then (s, false)
    else if slot.streamBase ≠ 0 then (streamForwards i slot (List.range streamCount) s, true)
    else (s, true)

def streamListeners (i : Nat) (slot : Slot) (s : Globals) : Globals :=
  (List.range streamCount).foldl (fun s (k : Nat) =>
    (addListener cfg (slot.streamBase + k) loopback (slot.streamBase + k + locOffset)
      (some (i, k)) false s).1) s

def bindListeners (i : Nat) (s : Globals) : Globals × Bool :=
  match s.slot? i with
  | none => (s, false)
  | some slot =>
    let (s, ok) := addListener cfg slot.adbPort slot.adbDstHost slot.adbDstPort none false s
    if !ok then (s, false)
    else if slot.streamBase ≠ 0 then (streamListeners cfg i slot s, true)
    else (s, true)

def slotSetupNew (i : Nat) (s : Globals) : Globals :=
  let (s, ok) := establishForwards cfg i s
  if !ok then s
  else
    let (s, ok) := bindListeners cfg i s
    if !ok then s
    else s.modifySlot i fun slot => { slot with ready := true }

/-! ## A rescan -/

/-- Phase A of a slot: whether it is in the list, and whether it has come back. -/
def Slot.look (devs : List Dev) (slot : Slot) : Slot :=
  let seen := devs.any fun d => slot.serial = d.serial
  { slot with
    reappeared := (seen && !slot.present && slot.ready) || slot.reappeared
    present := seen }

def phaseA (devs : List Dev) (s : Globals) : Globals := { s with slots := s.slots.map (·.look devs) }

/-- Phase B1: refresh the first slot that has come back, as long as there is one. -/
def refreshLoop : Nat → Globals → Globals
  | 0, s => s
  | fuel + 1, s =>
    match s.slots.findIdx? (·.reappeared) with
    | none => s
    | some i =>
      let s := s.modifySlot i fun slot => { slot with reappeared := false }
      refreshLoop fuel (establishForwards cfg i s).1

def newSlot (d : Dev) (i : Nat) : Slot :=
  let serial := d.serial.take 127
  { serial := serial
    model := d.model.take 95
    kind := devKind serial
    adbDstHost := []
    adbDstPort := 0
    idx := i
    adbPort := cfg.adbBase + i
    streamBase := if cfg.noStream then 0 else streamBase + i * streamCount
    present := true
    ready := false
    reappeared := false }

/-- Phase B2 for one device: a serial without a slot gets the next one. -/
def phaseB2 (s : Globals) (d : Dev) : Globals :=
  if s.slots.any fun slot => slot.serial = d.serial then s
  else if maxSlots ≤ s.slots.length then { s with warned := true }
  else
    let i := s.slots.length
    slotSetupNew cfg i { s with slots := s.slots ++ [newSlot cfg d i] }

/-- `rescan_once`; `none` is a failed `adb devices`. -/
def rescanOnce (devs : Option (List Dev)) (s : Globals) : Globals :=
  match devs with
  | none => s
  | some devs =>
    let devs := devs.take 64
    let s := phaseA devs s
    (devs.foldl (phaseB2 cfg) (refreshLoop cfg s.slots.length s))

/-! ## The refresh loop ends -/

def Globals.flags (s : Globals) : List Bool := s.slots.map (·.reappeared)

theorem flags_modifySlot (s : Globals) (i : Nat) {f : Slot → Slot}
    (hf : ∀ x, (f x).reappeared = x.reappeared) : (s.modifySlot i f).flags = s.flags := by
  apply List.ext_getElem?
  intro j
  simp only [Globals.flags, Globals.modifySlot, List.getElem?_map, List.getElem?_modify]
  split
  · simp [Function.comp_def, hf]
  · simp

theorem adbForward_slots (serial : CString) (loc dev : Int) (s : Globals) :
    (adbForward serial loc dev s).1.slots = s.slots := by
  simp only [adbForward]
  split
  · rfl
  · split
    · rfl
    · split <;> rfl

theorem verifyGuestAdb_slots (loc : Int) (s : Globals) :
    (verifyGuestAdb loc s).1.slots = s.slots := by
  simp only [verifyGuestAdb]
  split <;> rfl

theorem forwardAndVerify_slots (serial : CString) (loc : Int) (s : Globals) :
    (forwardAndVerify cfg serial loc s).1.slots = s.slots := by
  simp only [forwardAndVerify]
  split
  · rw [verifyGuestAdb_slots, adbForward_slots]
  · rw [adbForward_slots]

theorem reachGuest_slots (serial : CString) (loc : Int) (s : Globals) :
    (reachGuest cfg serial loc s).1.slots = s.slots := by
  simp only [reachGuest]
  split
  · rw [forwardAndVerify_slots]
  · rw [forwardAndVerify_slots]
    exact forwardAndVerify_slots cfg serial loc s

theorem addListenerOn_slots (l : Listener) (made : Nat) (s : Globals) :
    (addListenerOn l made s).1.slots = s.slots := by
  simp only [addListenerOn]
  split
  · rfl
  · split <;> rfl

theorem addListener_slots (pubPort : Int) (dstHost : CString) (dstPort : Int)
    (group : Option (Nat × Nat)) (isDiscovery : Bool) (s : Globals) :
    (addListener cfg pubPort dstHost dstPort group isDiscovery s).1.slots = s.slots := by
  have hfold : ∀ (ips : List CString) (p : Globals × Nat),
      (ips.foldl (fun (p : Globals × Nat) ip =>
        addListenerOn ⟨ip, pubPort, dstHost, dstPort, group, isDiscovery⟩ p.2 p.1) p).1.slots =
        p.1.slots := by
    intro ips
    induction ips with
    | nil => exact fun _ => rfl
    | cons ip ips ih =>
      intro p
      rw [List.foldl_cons, ih, addListenerOn_slots]
  exact hfold cfg.bindIps (s, 0)

theorem streamForwards_flags (i : Nat) (slot : Slot) (ks : List Nat) (s : Globals) :
    (streamForwards i slot ks s).flags = s.flags := by
  induction ks generalizing s with
  | nil => rfl
  | cons k ks ih =>
    simp only [streamForwards]
    split
    · rw [ih, Globals.flags, adbForward_slots, Globals.flags]
    · rw [flags_modifySlot _ _ (by simp), Globals.flags, adbForward_slots, Globals.flags]

theorem setDst_flags (i : Nat) (host : CString) (port : Int) (s : Globals) :
    (setDst i host port s).flags = s.flags :=
  flags_modifySlot s i fun _ => rfl

theorem establishAdb_flags (i : Nat) (slot : Slot) (s : Globals) :
    (establishAdb cfg i slot s).1.flags = s.flags := by
  have hreach : (reachGuest cfg slot.serial (slot.adbPort + locOffset) s).1.flags = s.flags := by
    rw [Globals.flags, reachGuest_slots, Globals.flags]
  simp only [establishAdb]
  split
  · split
    · rw [setDst_flags, hreach]
    · exact hreach
  · split
    · exact setDst_flags ..
    · rfl

theorem establishForwards_flags (i : Nat) (s : Globals) :
    (establishForwards cfg i s).1.flags = s.flags := by
  simp only [establishForwards]
  split
  · rfl
  · split
    · exact establishAdb_flags ..
    · split
      · rw [streamForwards_flags, establishAdb_flags]
      · exact establishAdb_flags ..

/-- The loop of phase B1 goes on until no slot is left that has come back: each turn
clears the first, so that the next one is further on. -/
theorem refreshLoop_done (fuel : Nat) (s : Globals)
    (h : ∀ j, s.flags[j]? = some true → s.flags.length ≤ j + fuel) :
    ∀ slot ∈ (refreshLoop cfg fuel s).slots, slot.reappeared = false := by
  induction fuel generalizing s with
  | zero =>
    intro slot hslot
    obtain ⟨j, hj⟩ := List.mem_iff_getElem?.mp hslot
    by_contra hr
    have hflag : s.flags[j]? = some true := by
      simp only [Globals.flags, List.getElem?_map]
      rw [show s.slots[j]? = some slot from hj]
      simpa using hr
    have hlt := (List.getElem?_eq_some_iff.mp hflag).1
    have := h j hflag
    omega
  | succ fuel ih =>
    unfold refreshLoop
    split
    · rename_i hnone
      intro slot hslot
      simpa using List.findIdx?_eq_none_iff.mp hnone slot hslot
    · rename_i i hi
      obtain ⟨hlt, hget, hfirst⟩ := List.findIdx?_eq_some_iff_getElem.mp hi
      refine ih _ fun j hj => ?_
      rw [establishForwards_flags] at hj ⊢
      have hlen : (s.modifySlot i fun slot => { slot with reappeared := false }).flags.length =
          s.flags.length := by simp [Globals.flags, Globals.modifySlot]
      have hflag : j ≠ i ∧ s.flags[j]? = some true := by
        simp only [Globals.flags, Globals.modifySlot, List.getElem?_map,
          List.getElem?_modify] at hj ⊢
        by_cases hji : i = j
        · subst hji
          simp [List.getElem?_eq_getElem hlt] at hj
        · simpa [hji, Ne.symm hji] using hj
      have hle : ¬j < i := by
        intro hji
        have hnot := hfirst j hji
        have hget' := hflag.2
        simp only [Globals.flags, List.getElem?_map,
          List.getElem?_eq_getElem (Nat.lt_trans hji hlt), Option.map_some, Option.some.injEq] at hget'
        exact hnot hget'
      have hi' : s.flags[i]? = some true := by
        simp only [Globals.flags, List.getElem?_map, List.getElem?_eq_getElem hlt, Option.map_some,
          hget]
      have := h i hi'
      omega

/-- As much fuel as there are slots is enough. -/
theorem refreshLoop_all (s : Globals) :
    ∀ slot ∈ (refreshLoop cfg s.slots.length s).slots, slot.reappeared = false := by
  refine refreshLoop_done cfg _ s fun j _ => ?_
  rw [Globals.flags, List.length_map]
  exact Nat.le_add_left _ _

/-- A line of the answer at the discovery port. -/
structure DeviceLine where
  adbPort : Int
  kind : Kind
  serial : CString
  model : CString
  streamBase : Int
  deriving DecidableEq, Repr

/-- The lines `discovery_write` writes: the slots that are there and set up. -/
def deviceLines (s : Globals) : List DeviceLine :=
  (s.slots.filter fun slot => slot.present && slot.ready).map fun slot =>
    ⟨slot.adbPort, slot.kind, slot.serial, slot.model, slot.streamBase⟩

/-! ## The agent -/

inductive AgentAct where
  /-- `main` opens the discovery port. -/
  | start (answers : List Bool)
  | rescan (devs : Option (List Dev)) (answers : List Bool)
  deriving DecidableEq

def agentStep (s : Globals) : AgentAct → Option Globals
  | .start answers =>
    if s.started then none
    else
      let (s, ok) := addListener cfg cfg.discoveryPort loopback 0 none true { s with answers := answers }
      if ok then some { s with started := true } else none
  | .rescan devs answers =>
    if s.started then some (rescanOnce cfg devs { s with answers := answers }) else none

theorem agentStep_start {s s' : Globals} {answers : List Bool}
    (h : agentStep cfg s (.start answers) = some s') :
    s' = { (addListener cfg cfg.discoveryPort loopback 0 none true
      { s with answers := answers }).1 with started := true } := by
  simp only [agentStep] at h
  split at h
  · cases h
  · split at h
    · exact (Option.some.inj h).symm
    · cases h

theorem agentStep_rescan {s s' : Globals} {devs : Option (List Dev)} {answers : List Bool}
    (h : agentStep cfg s (.rescan devs answers) = some s') :
    s' = rescanOnce cfg devs { s with answers := answers } := by
  simp only [agentStep] at h
  split at h
  · exact (Option.some.inj h).symm
  · cases h

/-- `main` gives no slot. -/
theorem start_slots {s s' : Globals} {answers : List Bool}
    (h : agentStep cfg s (.start answers) = some s') : s'.slots = s.slots := by
  obtain rfl := agentStep_start cfg h
  exact addListener_slots ..

def agentLts : Lts Globals AgentAct := { init := .empty, step := agentStep cfg }

end RigControl.Agent
