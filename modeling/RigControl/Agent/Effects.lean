import Mathlib.Logic.Relation
import RigControl.Agent.Discovery

/-!
# What the agent does to its tables

Every change `rescan_once` makes is one of a few effects, each with what is known when
it happens: a forward is made for a slot and one of its own ports, a listener is opened
for a slot that is set up, a slot is given to a new serial. `rescanOnce_steps` takes
the code apart into effects; what holds of the tables is then proved for the effects.
-/

namespace RigControl.Agent

open RigControl.Lib

/-- What stays as it is when a slot is updated. -/
structure Slot.Same (x y : Slot) : Prop where
  serial : y.serial = x.serial
  kind : y.kind = x.kind
  idx : y.idx = x.idx
  adbPort : y.adbPort = x.adbPort
  streamBase : y.streamBase = x.streamBase ∨ y.streamBase = 0

/-- Where the adb port of a slot is relayed to. -/
def Slot.relayDst (slot : Slot) : Option (CString × Int) :=
  if slot.kind ≠ .wireless then some (loopback, slot.adbPort + locOffset)
  else wirelessDst slot.serial

/-- A forward that works. -/
structure Forward where
  serial : CString
  locPort : Int
  devPort : Int
  deriving DecidableEq, Repr

def AdbCmd.made : AdbCmd × Bool → Option Forward
  | (.forward serial locPort devPort, true) => some ⟨serial, locPort, devPort⟩
  | _ => none

/-- Every forward there ever was. -/
def Globals.forwards (s : Globals) : List Forward := s.trace.filterMap AdbCmd.made

def Slot.streamForward (slot : Slot) (k : Nat) : Forward :=
  ⟨slot.serial, slot.streamBase + k + locOffset, Agent.streamBase + k⟩

variable (cfg : Config)

/-- The forwards that are made for a slot. -/
inductive Slot.Forwards (slot : Slot) : Forward → Prop where
  | adb : slot.Forwards ⟨slot.serial, slot.adbPort + locOffset, cfg.tcpipPort⟩
  | stream (k : Nat) : k < streamCount → slot.streamBase ≠ 0 →
      slot.Forwards (slot.streamForward k)

/-- The listeners that are opened for the slot `i`. -/
inductive Slot.Serves (s : Globals) (i : Nat) (slot : Slot) : Listener → Prop where
  | adb (ip host : CString) (port : Int) : slot.relayDst = some (host, port) →
      slot.Serves s i ⟨ip, slot.adbPort, host, port, none, false⟩
  | stream (ip : CString) (k : Nat) : k < streamCount → slot.streamBase ≠ 0 →
      slot.streamForward k ∈ s.forwards →
      slot.Serves s i ⟨ip, slot.streamBase + k, loopback, slot.streamBase + k + locOffset,
        some (i, k), false⟩

/-- The effects; `D` holds of the devices that may get a slot. -/
inductive Effect (D : Dev → Prop) (s : Globals) : Globals → Prop where
  | answers (as : List Bool) : Effect D s { s with answers := as }
  | fwds (fs : List (CString × Int)) : Effect D s { s with fwds := fs }
  | warned : Effect D s { s with warned := true }
  /-- A command: if it is a forward, it is one for a slot. -/
  | command (c : AdbCmd) (ok : Bool) :
      (∀ serial loc dev, c = .forward serial loc dev →
        ∃ i slot, s.slot? i = some slot ∧ slot.Forwards cfg ⟨serial, loc, dev⟩) →
      Effect D s { s with trace := s.trace ++ [(c, ok)] }
  | update (i : Nat) (f : Slot → Slot) : (∀ x : Slot, x.Same (f x)) → Effect D s (s.modifySlot i f)
  | look (devs : List Dev) : Effect D s (phaseA devs s)
  | listen (i : Nat) (slot : Slot) (l : Listener) : s.slot? i = some slot → slot.Serves s i l →
      l.ip ∈ cfg.bindIps → Effect D s { s with listeners := s.listeners ++ [l] }
  | give (d : Dev) : D d → (∀ slot ∈ s.slots, slot.serial ≠ d.serial) → s.slots.length < maxSlots →
      Effect D s { s with slots := s.slots ++ [newSlot cfg d s.slots.length] }

abbrev Steps (D : Dev → Prop) : Globals → Globals → Prop := Relation.ReflTransGen (Effect cfg D)

/-! ## Calls that leave the slots alone -/

variable {cfg}

/-- Effects that change no slot; what was forwarded stays. -/
structure Calls (cfg : Config) (D : Dev → Prop) (s s' : Globals) : Prop where
  steps : Steps cfg D s s'
  slots : s'.slots = s.slots
  forwards : s.forwards ⊆ s'.forwards

namespace Calls

variable {D : Dev → Prop} {s s' s'' : Globals}

theorem trans (h : Calls cfg D s s') (h' : Calls cfg D s' s'') : Calls cfg D s s'' :=
  ⟨h.steps.trans h'.steps, h'.slots.trans h.slots, List.Subset.trans h.forwards h'.forwards⟩

theorem slot? (h : Calls cfg D s s') {i : Nat} {slot : Slot} (hs : s.slot? i = some slot) :
    s'.slot? i = some slot := by
  rw [Globals.slot?, h.slots]
  exact hs

end Calls

section

variable (cfg : Config) (D : Dev → Prop)

theorem answer_calls (s : Globals) : Calls cfg D s s.answer.1 :=
  ⟨.single (.answers _), rfl, List.Subset.refl _⟩

theorem runCmd_calls (c : AdbCmd) (s : Globals) (h : ∀ serial loc dev,
    c = .forward serial loc dev →
      ∃ i slot, s.slot? i = some slot ∧ slot.Forwards cfg ⟨serial, loc, dev⟩) :
    Calls cfg D s (runCmd c s).1 := by
  refine (answer_calls cfg D s).trans ⟨.single (.command c s.answer.2 h), rfl, ?_⟩
  have hmade : (runCmd c s).1.forwards = s.forwards ++ [(c, s.answer.2)].filterMap AdbCmd.made :=
    List.filterMap_append
  rw [hmade]
  exact List.subset_append_left _ _

/-- A command that is no forward. -/
theorem runCmd_calls_of_ne (c : AdbCmd) (s : Globals)
    (h : ∀ serial loc dev, c ≠ .forward serial loc dev) : Calls cfg D s (runCmd c s).1 :=
  runCmd_calls cfg D c s fun serial loc dev hc => absurd hc (h serial loc dev)

theorem verifyGuestAdb_calls (loc : Int) (s : Globals) :
    Calls cfg D s (verifyGuestAdb loc s).1 := by
  simp only [verifyGuestAdb]
  split
  · exact ((runCmd_calls_of_ne cfg D (.connect loc) _ (by simp)).trans
      (runCmd_calls_of_ne cfg D (.getState loc) _ (by simp))).trans
      (runCmd_calls_of_ne cfg D (.disconnect loc) _ (by simp))
  · exact (runCmd_calls_of_ne cfg D (.connect loc) _ (by simp)).trans
      (runCmd_calls_of_ne cfg D (.disconnect loc) _ (by simp))

variable {s : Globals} {i : Nat} {slot : Slot} (hs : s.slot? i = some slot)

include hs

theorem adbForward_calls {serial : CString} {loc dev : Int}
    (hf : slot.Forwards cfg ⟨serial, loc, dev⟩) :
    Calls cfg D s (adbForward serial loc dev s).1 ∧
      ((adbForward serial loc dev s).2 = true →
        ⟨serial, loc, dev⟩ ∈ (adbForward serial loc dev s).1.forwards) := by
  have hrun := runCmd_calls cfg D (.forward serial loc dev) s fun _ _ _ hc => by
    cases hc
    exact ⟨i, slot, hs, hf⟩
  have hmade : (runCmd (.forward serial loc dev) s).2 = true →
      ⟨serial, loc, dev⟩ ∈ (runCmd (.forward serial loc dev) s).1.forwards := by
    intro hok
    have hanswer : s.answer.2 = true := hok
    simp [runCmd, Globals.forwards, AdbCmd.made, hanswer]
  simp only [adbForward]
  split
  · exact ⟨hrun, fun h => by cases h⟩
  · rename_i hok
    have hok' : (runCmd (.forward serial loc dev) s).2 = true := by simpa using hok
    split
    · exact ⟨hrun, fun _ => hmade hok'⟩
    · split
      · exact ⟨hrun.trans ⟨.single (.fwds _), rfl, List.Subset.refl _⟩, fun _ => hmade hok'⟩
      · exact ⟨hrun, fun _ => hmade hok'⟩

theorem forwardAndVerify_calls :
    Calls cfg D s (forwardAndVerify cfg slot.serial (slot.adbPort + locOffset) s).1 := by
  obtain ⟨hfw, -⟩ := adbForward_calls cfg D hs .adb
  simp only [forwardAndVerify]
  split
  · exact hfw.trans (verifyGuestAdb_calls cfg D _ _)
  · exact hfw

theorem reachGuest_calls :
    Calls cfg D s (reachGuest cfg slot.serial (slot.adbPort + locOffset) s).1 := by
  have hfirst := forwardAndVerify_calls cfg D hs
  simp only [reachGuest]
  split
  · exact hfirst
  · have hsecond := hfirst.trans (runCmd_calls_of_ne cfg D
      (.tcpip slot.serial cfg.tcpipPort) _ (by simp))
    exact hsecond.trans (forwardAndVerify_calls cfg D (hsecond.slot? hs))

end

/-! ## Setting a slot up -/

theorem slot?_modifySlot (s : Globals) (i : Nat) (f : Slot → Slot) :
    (s.modifySlot i f).slot? i = (s.slot? i).map f := by
  simp [Globals.slot?, Globals.modifySlot]

section

variable (cfg : Config) (D : Dev → Prop)

/-- What `establish_forwards` leaves when it succeeds: the destination of the adb port
is set, and either all stream forwards are made or the range is given up. -/
structure Ready (s : Globals) (slot : Slot) : Prop where
  dst : slot.relayDst = some (slot.adbDstHost, slot.adbDstPort)
  forwards : slot.streamBase ≠ 0 → ∀ k < streamCount, slot.streamForward k ∈ s.forwards

theorem streamForwards_steps {i : Nat} {cur slot : Slot} (hserial : cur.serial = slot.serial)
    (hbase : cur.streamBase = slot.streamBase) (hne : slot.streamBase ≠ 0) (ks : List Nat)
    (hks : ∀ k ∈ ks, k < streamCount) {s : Globals} (hs : s.slot? i = some cur) :
    Steps cfg D s (streamForwards i slot ks s) ∧ s.forwards ⊆ (streamForwards i slot ks s).forwards ∧
      ((streamForwards i slot ks s).slot? i = some { cur with streamBase := 0 } ∨
        ((streamForwards i slot ks s).slot? i = some cur ∧
          ∀ k ∈ ks, slot.streamForward k ∈ (streamForwards i slot ks s).forwards)) := by
  induction ks generalizing s with
  | nil => exact ⟨.refl, List.Subset.refl _, .inr ⟨hs, by simp⟩⟩
  | cons k ks ih =>
    have hk : k < streamCount := hks k List.mem_cons_self
    have hfw : cur.Forwards cfg (slot.streamForward k) := by
      have h := @Slot.Forwards.stream cfg cur k hk (hbase ▸ hne)
      rwa [Slot.streamForward, hserial, hbase] at h
    obtain ⟨hcalls, hmade⟩ := adbForward_calls cfg D hs hfw
    simp only [streamForwards]
    split
    · rename_i hok
      obtain ⟨hsteps, hsub, hres⟩ :=
        ih (fun j hj => hks j (List.mem_cons_of_mem k hj)) (hcalls.slot? hs)
      refine ⟨hcalls.steps.trans hsteps, List.Subset.trans hcalls.forwards hsub, ?_⟩
      refine hres.imp id fun h => ⟨h.1, fun j hj => ?_⟩
      rcases List.mem_cons.mp hj with rfl | hj
      · exact hsub (hmade hok)
      · exact h.2 j hj
    · refine ⟨hcalls.steps.tail (.update i _ fun x => ⟨rfl, rfl, rfl, rfl, .inr rfl⟩),
        hcalls.forwards, .inl ?_⟩
      rw [slot?_modifySlot, hcalls.slot? hs]
      rfl

theorem setDst_steps {s : Globals} {i : Nat} {slot : Slot} (hs : s.slot? i = some slot)
    (host : CString) (port : Int) : Steps cfg D s (setDst i host port s) ∧
      (setDst i host port s).slot? i = some { slot with adbDstHost := host, adbDstPort := port } := by
  refine ⟨.single (.update i _ fun x => ⟨rfl, rfl, rfl, rfl, .inl rfl⟩), ?_⟩
  rw [setDst, slot?_modifySlot, hs]
  rfl

theorem establishAdb_steps {s : Globals} {i : Nat} {slot : Slot} (hs : s.slot? i = some slot) :
    Steps cfg D s (establishAdb cfg i slot s).1 ∧
      ∃ cur, (establishAdb cfg i slot s).1.slot? i = some cur ∧
        cur.serial = slot.serial ∧ cur.streamBase = slot.streamBase ∧
        ((establishAdb cfg i slot s).2 = true →
          cur.relayDst = some (cur.adbDstHost, cur.adbDstPort)) := by
  simp only [establishAdb]
  split
  · rename_i hw
    have hreach := reachGuest_calls cfg D hs
    split
    · obtain ⟨h1, h2⟩ := setDst_steps cfg D (hreach.slot? hs) loopback (slot.adbPort + locOffset)
      exact ⟨hreach.steps.trans h1, _, h2, rfl, rfl, fun _ => if_pos hw⟩
    · exact ⟨hreach.steps, slot, hreach.slot? hs, rfl, rfl, fun h => by cases h⟩
  · rename_i hw
    split
    · rename_i host port hd
      obtain ⟨h1, h2⟩ := setDst_steps cfg D hs host port
      exact ⟨h1, _, h2, rfl, rfl, fun _ => (if_neg hw).trans hd⟩
    · exact ⟨.refl, slot, hs, rfl, rfl, fun h => by cases h⟩

theorem establishForwards_steps {s : Globals} {i : Nat} {slot : Slot}
    (hs : s.slot? i = some slot) :
    Steps cfg D s (establishForwards cfg i s).1 ∧
      ∃ cur, (establishForwards cfg i s).1.slot? i = some cur ∧
        ((establishForwards cfg i s).2 = true → Ready (establishForwards cfg i s).1 cur) := by
  obtain ⟨hsteps, cur, hcur, hserial, hbase, hdst⟩ := establishAdb_steps cfg D hs
  simp only [establishForwards, hs]
  split
  · exact ⟨hsteps, cur, hcur, fun h => by cases h⟩
  · rename_i hok
    replace hdst := hdst (by simpa using hok)
    split
    · rename_i hne
      obtain ⟨hsteps', -, hres⟩ := streamForwards_steps cfg D hserial hbase hne
        (List.range streamCount) (fun k hk => List.mem_range.mp hk) hcur
      refine ⟨hsteps.trans hsteps', ?_⟩
      rcases hres with hres | ⟨hres, hall⟩
      · exact ⟨_, hres, fun _ => ⟨hdst, fun h => absurd rfl h⟩⟩
      · refine ⟨cur, hres, fun _ => ⟨hdst, fun _ k hk => ?_⟩⟩
        have hmem := hall k (List.mem_range.mpr hk)
        rwa [Slot.streamForward, ← hserial, ← hbase] at hmem
    · rename_i hne
      exact ⟨hsteps, cur, hcur, fun _ => ⟨hdst, fun h => absurd (hbase ▸ h) hne⟩⟩

theorem Slot.Serves.of_trace {s s' : Globals} {i : Nat} {slot : Slot} {l : Listener}
    (h : slot.Serves s i l) (htrace : s'.trace = s.trace) : slot.Serves s' i l := by
  cases h with
  | adb ip host port hdst => exact .adb ip host port hdst
  | stream ip k hk hne hmade =>
    refine .stream ip k hk hne ?_
    rw [Globals.forwards, htrace]
    exact hmade

theorem addListenerOn_steps {i : Nat} {slot : Slot} {l : Listener} (made : Nat) {s : Globals}
    (hs : s.slot? i = some slot) (hserve : slot.Serves s i l) (hip : l.ip ∈ cfg.bindIps) :
    Steps cfg D s (addListenerOn l made s).1 ∧ (addListenerOn l made s).1.slots = s.slots ∧
      (addListenerOn l made s).1.trace = s.trace := by
  have hanswer : Steps cfg D s s.answer.1 := .single (.answers _)
  simp only [addListenerOn]
  split
  · exact ⟨hanswer, rfl, rfl⟩
  · split
    · exact ⟨hanswer.tail (.listen i slot l hs (hserve.of_trace rfl) hip), rfl, rfl⟩
    · exact ⟨hanswer, rfl, rfl⟩

/-- `add_listener` for a slot: on each address the listener is one that serves it. -/
theorem addListener_steps {i : Nat} {slot : Slot} {pubPort : Int} {dstHost : CString}
    {dstPort : Int} {group : Option (Nat × Nat)} {s : Globals} (hs : s.slot? i = some slot)
    (hserve : ∀ ip, slot.Serves s i ⟨ip, pubPort, dstHost, dstPort, group, false⟩) :
    Steps cfg D s (addListener cfg pubPort dstHost dstPort group false s).1 ∧
      (addListener cfg pubPort dstHost dstPort group false s).1.slots = s.slots ∧
      (addListener cfg pubPort dstHost dstPort group false s).1.trace = s.trace := by
  have hfold : ∀ (ips : List CString), (∀ ip ∈ ips, ip ∈ cfg.bindIps) → ∀ (p : Globals × Nat),
      p.1.slots = s.slots → p.1.trace = s.trace →
      let q := ips.foldl (fun (p : Globals × Nat) ip =>
        addListenerOn ⟨ip, pubPort, dstHost, dstPort, group, false⟩ p.2 p.1) p
      Steps cfg D p.1 q.1 ∧ q.1.slots = s.slots ∧ q.1.trace = s.trace := by
    intro ips
    induction ips with
    | nil => exact fun _ p hslots htrace => ⟨.refl, hslots, htrace⟩
    | cons ip ips ih =>
      intro hips p hslots htrace
      have hs' : p.1.slot? i = some slot := by rw [Globals.slot?, hslots]; exact hs
      obtain ⟨h1, h2, h3⟩ := addListenerOn_steps cfg D p.2 hs' ((hserve ip).of_trace htrace)
        (hips ip List.mem_cons_self)
      obtain ⟨h4, h5⟩ := ih (fun ip' h => hips ip' (List.mem_cons_of_mem ip h)) _
        (h2.trans hslots) (h3.trans htrace)
      exact ⟨h1.trans h4, h5⟩
  exact hfold cfg.bindIps (fun _ h => h) (s, 0) rfl rfl

theorem streamListeners_steps {i : Nat} {slot : Slot} {s : Globals} (hs : s.slot? i = some slot)
    (hne : slot.streamBase ≠ 0) (hmade : ∀ k < streamCount, slot.streamForward k ∈ s.forwards) :
    Steps cfg D s (streamListeners cfg i slot s) := by
  have hfold : ∀ (ks : List Nat), (∀ k ∈ ks, k < streamCount) → ∀ s1 : Globals,
      s1.slots = s.slots → s1.trace = s.trace →
      Steps cfg D s1 (ks.foldl (fun s (k : Nat) =>
        (addListener cfg (slot.streamBase + k) loopback (slot.streamBase + k + locOffset)
          (some (i, k)) false s).1) s1) := by
    intro ks
    induction ks with
    | nil => exact fun _ _ _ _ => .refl
    | cons k ks ih =>
      intro hks s1 hslots htrace
      have hs' : s1.slot? i = some slot := by rw [Globals.slot?, hslots]; exact hs
      have hk : k < streamCount := hks k List.mem_cons_self
      have hfw : slot.streamForward k ∈ s1.forwards := by
        rw [Globals.forwards, htrace]
        exact hmade k hk
      obtain ⟨h1, h2, h3⟩ := addListener_steps cfg D hs' fun ip => .stream ip k hk hne hfw
      exact h1.trans (ih (fun j h => hks j (List.mem_cons_of_mem k h)) _ (h2.trans hslots)
        (h3.trans htrace))
  exact hfold _ (fun k hk => List.mem_range.mp hk) s rfl rfl

theorem bindListeners_steps {i : Nat} {slot : Slot} {s : Globals} (hs : s.slot? i = some slot)
    (hready : Ready s slot) : Steps cfg D s (bindListeners cfg i s).1 := by
  obtain ⟨h1, h2, h3⟩ := addListener_steps cfg D hs fun ip => .adb ip _ _ hready.dst
  simp only [bindListeners, hs]
  split
  · exact h1
  · split
    · rename_i hne
      refine h1.trans (streamListeners_steps cfg D ?_ hne ?_)
      · rw [Globals.slot?, h2]
        exact hs
      · rw [Globals.forwards, h3]
        exact hready.forwards hne
    · exact h1

theorem slotSetupNew_steps {i : Nat} {slot : Slot} {s : Globals} (hs : s.slot? i = some slot) :
    Steps cfg D s (slotSetupNew cfg i s) := by
  obtain ⟨h1, cur, h2, h3⟩ := establishForwards_steps cfg D hs
  simp only [slotSetupNew]
  split
  · exact h1
  · rename_i hok
    have hbind := bindListeners_steps cfg D h2 (h3 (by simpa using hok))
    split
    · exact h1.trans hbind
    · exact (h1.trans hbind).tail (.update i _ fun x => ⟨rfl, rfl, rfl, rfl, .inl rfl⟩)

/-! ## A rescan -/

theorem refreshLoop_steps (fuel : Nat) (s : Globals) : Steps cfg D s (refreshLoop cfg fuel s) := by
  induction fuel generalizing s with
  | zero => exact .refl
  | succ fuel ih =>
    unfold refreshLoop
    split
    · exact .refl
    · rename_i i hi
      have hlt : i < s.slots.length := List.findIdx?_eq_some_iff_getElem.mp hi |>.1
      have hclear : (s.modifySlot i fun slot => { slot with reappeared := false }).slot? i =
          some { s.slots[i] with reappeared := false } := by
        rw [slot?_modifySlot, Globals.slot?, List.getElem?_eq_getElem hlt]
        rfl
      have hstep : Steps cfg D s (s.modifySlot i fun slot => { slot with reappeared := false }) :=
        .single (.update i (fun slot => { slot with reappeared := false })
          fun x => ⟨rfl, rfl, rfl, rfl, .inl rfl⟩)
      exact (hstep.trans (establishForwards_steps cfg D hclear).1).trans (ih _)

theorem phaseB2_steps (s : Globals) {d : Dev} (hd : D d) : Steps cfg D s (phaseB2 cfg s d) := by
  unfold phaseB2
  split
  · exact .refl
  · rename_i hnew
    split
    · exact .single .warned
    · rename_i hroom
      have hfresh : ∀ slot ∈ s.slots, slot.serial ≠ d.serial := by
        simpa using hnew
      have hgiven : (Globals.slot? { s with slots := s.slots ++ [newSlot cfg d s.slots.length] }
          s.slots.length) = some (newSlot cfg d s.slots.length) := by simp [Globals.slot?]
      exact .head (.give d hd hfresh (Nat.lt_of_not_le hroom)) (slotSetupNew_steps cfg D hgiven)

/-- **A rescan is made of effects.** -/
theorem rescanOnce_steps (devs : Option (List Dev)) (s : Globals) :
    Steps cfg (fun d => ∃ ds, devs = some ds ∧ d ∈ ds.take 64) s (rescanOnce cfg devs s) := by
  cases devs with
  | none => exact .refl
  | some devs =>
    have hB2 : ∀ (ds : List Dev), (∀ d ∈ ds, d ∈ devs.take 64) → ∀ s : Globals,
        Steps cfg (fun d => ∃ ds, some devs = some ds ∧ d ∈ ds.take 64) s
          (ds.foldl (phaseB2 cfg) s) := by
      intro ds
      induction ds with
      | nil => exact fun _ _ => .refl
      | cons d ds ih =>
        exact fun hds s => (phaseB2_steps cfg _ s ⟨devs, rfl, hds d List.mem_cons_self⟩).trans
          (ih (fun e he => hds e (List.mem_cons_of_mem d he)) _)
    exact .head (.look _) ((refreshLoop_steps cfg _ _ _).trans (hB2 _ (fun _ h => h) _))

end

end RigControl.Agent
