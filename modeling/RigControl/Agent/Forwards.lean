import Mathlib.Data.List.Nodup
import Mathlib.Data.List.Perm.Subperm
import RigControl.Agent.Rescan

/-!
# The table of forwards

`g_fwds` has room for 128 forwards, and `adb_forward` leaves one out without a word when
it is full. It never is: a slot is given to one serial for good and has five local ports,
and there are eight slots. So the table is the set of pairs that were ever forwarded
(`forwards_recorded`), and `cleanup_forwards` removes each of them once.
-/

namespace RigControl.Agent

open RigControl.Lib

/-- What `g_fwds` keeps of a forward. -/
def Forward.entry (f : Forward) : CString × Int := (f.serial, f.locPort)

/-- The pairs for which a forward has ever worked. -/
def Globals.forwarded (s : Globals) : List (CString × Int) := s.forwards.map Forward.entry

/-! ## `cleanup_forwards` -/

/-- `adb -s SERIAL forward --remove tcp:PORT`. -/
structure Removal where
  serial : CString
  locPort : Int
  deriving DecidableEq, Repr

/-- The loop of `cleanup_forwards`: the removals with their outcomes, which nothing looks at. -/
def removeForwards : List (CString × Int) → Globals → Globals × List (Removal × Bool)
  | [], s => (s, [])
  | (serial, locPort) :: fwds, s =>
    let (s, ok) := s.answer
    let (s, removals) := removeForwards fwds s
    (s, (⟨serial, locPort⟩, ok) :: removals)

def cleanupForwards (s : Globals) : Globals × List (Removal × Bool) :=
  let (s, removals) := removeForwards s.fwds s
  ({ s with fwds := [] }, removals)

theorem removeForwards_removals (fwds : List (CString × Int)) (s : Globals) :
    (removeForwards fwds s).2.map Prod.fst = fwds.map fun f => ⟨f.1, f.2⟩ := by
  induction fwds generalizing s with
  | nil => rfl
  | cons f fwds ih =>
    simp only [removeForwards, List.map_cons]
    rw [ih]

theorem cleanupForwards_fwds (s : Globals) : (cleanupForwards s).1.fwds = [] := rfl

theorem cleanupForwards_removals (s : Globals) :
    (cleanupForwards s).2.map Prod.fst = s.fwds.map fun f => ⟨f.1, f.2⟩ :=
  removeForwards_removals s.fwds s

/-! ## The table -/

/-- The table holds each pair that was forwarded, once. -/
structure Globals.Recorded (s : Globals) : Prop where
  distinct : s.fwds.Nodup
  same : ∀ p, p ∈ s.fwds ↔ p ∈ s.forwarded

variable {s s' : Globals}

theorem Globals.Recorded.of_same (h : s.Recorded) (hfwds : s'.fwds = s.fwds)
    (hforwards : s'.forwards = s.forwards) : s'.Recorded := by
  refine ⟨hfwds ▸ h.distinct, fun p => ?_⟩
  rw [hfwds, Globals.forwarded, hforwards]
  exact h.same p

theorem runCmd_forwards (c : AdbCmd) (s : Globals) :
    (runCmd c s).1.forwards = s.forwards ++ [(c, (runCmd c s).2)].filterMap AdbCmd.made :=
  List.filterMap_append

/-- A command that is no forward makes none. -/
theorem runCmd_forwards_of_ne {c : AdbCmd} (h : ∀ serial loc dev, c ≠ .forward serial loc dev)
    (s : Globals) : (runCmd c s).1.forwards = s.forwards := by
  have hmade : AdbCmd.made (c, (runCmd c s).2) = none := by
    cases c with
    | forward serial loc dev => exact absurd rfl (h serial loc dev)
    | tcpip | connect | getState | disconnect => rfl
  rw [runCmd_forwards, List.filterMap_cons_none hmade, List.filterMap_nil, List.append_nil]

theorem verifyGuestAdb_recorded (loc : Int) (s : Globals) :
    (verifyGuestAdb loc s).1.fwds = s.fwds ∧ (verifyGuestAdb loc s).1.forwards = s.forwards := by
  simp only [verifyGuestAdb]
  split
  · refine ⟨rfl, ?_⟩
    rw [runCmd_forwards_of_ne (by simp), runCmd_forwards_of_ne (by simp),
      runCmd_forwards_of_ne (by simp)]
  · refine ⟨rfl, ?_⟩
    rw [runCmd_forwards_of_ne (by simp), runCmd_forwards_of_ne (by simp)]

/-- A forward that fails leaves the table as it is; one that works puts its pair in, if it
is not there and there is room. -/
theorem adbForward_cases (serial : CString) (loc dev : Int) (s : Globals) :
    (adbForward serial loc dev s).1.forwards =
        s.forwards ++ (if (adbForward serial loc dev s).2 then [⟨serial, loc, dev⟩] else []) ∧
      (adbForward serial loc dev s).1.fwds =
        if (adbForward serial loc dev s).2 = true ∧ (serial, loc) ∉ s.fwds ∧
          s.fwds.length < maxFwds
        then s.fwds ++ [(serial, loc)] else s.fwds := by
  constructor
  · rw [Globals.forwards, adbForward_trace, List.filterMap_append]
    cases (adbForward serial loc dev s).2 <;> rfl
  · have hany : (s.fwds.any fun f => f.2 = loc && f.1 = serial) = true ↔ (serial, loc) ∈ s.fwds := by
      rw [List.any_eq_true]
      constructor
      · rintro ⟨⟨serial', loc'⟩, hmem, heq⟩
        obtain ⟨rfl, rfl⟩ : loc' = loc ∧ serial' = serial := by simpa using heq
        exact hmem
      · exact fun hmem => ⟨_, hmem, by simp⟩
    have hfwds : (runCmd (.forward serial loc dev) s).1.fwds = s.fwds := rfl
    simp only [adbForward, hfwds]
    split
    · simp [hfwds]
    · split
      · rename_i hold
        simp [hany.mp hold, hfwds]
      · rename_i hnew
        rw [hany] at hnew
        split <;> simp_all

theorem Globals.Recorded.forward (h : s.Recorded) (hroom : s.fwds.length < maxFwds)
    (serial : CString) (loc dev : Int) : (adbForward serial loc dev s).1.Recorded := by
  obtain ⟨hforwards, hfwds⟩ := adbForward_cases serial loc dev s
  cases hok : (adbForward serial loc dev s).2 with
  | false =>
    simp only [hok, Bool.false_eq_true, if_false, false_and, List.append_nil] at hforwards hfwds
    exact h.of_same hfwds hforwards
  | true =>
    simp only [hok, if_true, true_and, hroom, and_true] at hforwards hfwds
    have hsame : ∀ p, p ∈ (adbForward serial loc dev s).1.forwarded ↔
        p ∈ s.fwds ∨ p = (serial, loc) := by
      intro p
      rw [Globals.forwarded, hforwards, List.map_append, List.mem_append, h.same]
      simp [Forward.entry, Globals.forwarded]
    by_cases hold : (serial, loc) ∈ s.fwds
    · rw [if_neg (not_not_intro hold)] at hfwds
      refine ⟨hfwds ▸ h.distinct, fun p => ?_⟩
      rw [hsame, hfwds]
      exact ⟨.inl, fun hp => hp.elim id fun heq => heq ▸ hold⟩
    · rw [if_pos hold] at hfwds
      refine ⟨?_, fun p => ?_⟩
      · rw [hfwds, List.nodup_append]
        refine ⟨h.distinct, by simp, fun p hp q hq => ?_⟩
        obtain rfl := List.mem_singleton.mp hq
        exact fun heq => hold (heq ▸ hp)
      · rw [hsame, hfwds, List.mem_append, List.mem_singleton]

/-! ## Five local ports for each slot -/

variable (cfg : Config)

/-- The local ports of the slot `i`. -/
def localPorts (i : Nat) : List Int :=
  (cfg.adbBase + i + locOffset) ::
    (List.range streamCount).map fun k => streamPort i k + locOffset

def Globals.localPairs (s : Globals) : List (CString × Int) :=
  s.slots.flatMap fun slot => (localPorts cfg slot.idx).map fun port => (slot.serial, port)

/-- A stream port is forwarded for a slot that has a range, and is one of the four. -/
def SlotOp.Streams (slot : Slot) : SlotOp → Prop
  | .stream _ k => k < streamCount ∧ slot.streamBase ≠ 0
  | _ => True

/-- Slots keep what they are, and a new one has the ports of its index. -/
structure Grows (s s' : Globals) : Prop where
  forth : ∀ i x, s.slot? i = some x → ∃ x', s'.slot? i = some x' ∧ x.Same x'
  back : ∀ i x', s'.slot? i = some x' → (∃ x, s.slot? i = some x ∧ x.Same x') ∨ x'.At cfg i
  room : s.slots.length ≤ maxSlots → s'.slots.length ≤ maxSlots

structure Tabled (t : Thread) : Prop where
  room : t.tables.slots.length ≤ maxSlots
  slot : ∀ i slot, t.tables.slot? i = some slot → slot.At cfg i
  recorded : t.tables.Recorded
  ports : ∀ p ∈ t.tables.fwds, p ∈ t.tables.localPairs cfg
  work : ∀ i op, t.work = some (i, op) → ∀ slot, t.tables.slot? i = some slot → op.Streams slot

variable {cfg}

theorem length_localPairs (s : Globals) :
    (s.localPairs cfg).length = s.slots.length * (streamCount + 1) := by
  unfold Globals.localPairs
  induction s.slots with
  | nil => rfl
  | cons slot slots ih =>
    rw [List.flatMap_cons, List.length_append, ih, List.length_cons, Nat.succ_mul, Nat.add_comm]
    simp [localPorts]

theorem mem_localPairs {serial : CString} {port : Int} :
    (serial, port) ∈ s.localPairs cfg ↔
      ∃ slot ∈ s.slots, slot.serial = serial ∧ port ∈ localPorts cfg slot.idx := by
  simp only [Globals.localPairs, List.mem_flatMap, List.mem_map, Prod.mk.injEq]
  constructor
  · rintro ⟨slot, hslot, port, hport, rfl, rfl⟩
    exact ⟨slot, hslot, rfl, hport⟩
  · rintro ⟨slot, hslot, rfl, hport⟩
    exact ⟨slot, hslot, port, hport, rfl, rfl⟩

/-- **There is always room.** -/
theorem Tabled.fwds_le {t : Thread} (h : Tabled cfg t) :
    t.tables.fwds.length ≤ maxSlots * (streamCount + 1) :=
  calc t.tables.fwds.length
      ≤ (t.tables.localPairs cfg).length := (h.recorded.distinct.subperm h.ports).length_le
    _ = t.tables.slots.length * (streamCount + 1) := length_localPairs _
    _ ≤ maxSlots * (streamCount + 1) := Nat.mul_le_mul_right _ h.room

theorem Tabled.hasRoom {t : Thread} (h : Tabled cfg t) : t.tables.fwds.length < maxFwds :=
  Nat.lt_of_le_of_lt h.fwds_le (by decide)

/-- The pairs of the slots that are there stay. -/
theorem Grows.localPairs (h : Grows cfg s s') : s.localPairs cfg ⊆ s'.localPairs cfg := by
  rintro ⟨serial, port⟩ hp
  obtain ⟨slot, hslot, hserial, hport⟩ := mem_localPairs.mp hp
  obtain ⟨i, hi⟩ := List.mem_iff_getElem?.mp hslot
  obtain ⟨slot', hslot', hsame⟩ := h.forth i slot hi
  refine mem_localPairs.mpr ⟨slot', List.mem_of_getElem? hslot', hsame.serial.trans hserial, ?_⟩
  rw [hsame.idx]
  exact hport

theorem Kept.grows (h : Kept s s') : Grows cfg s s' where
  forth i x hx := by
    obtain ⟨x', hx', hsame, -⟩ := h.slot i x hx
    exact ⟨x', hx', hsame⟩
  back i x' hx' := by
    obtain ⟨x, hx, hsame, -⟩ := h.back hx'
    exact .inl ⟨x, hx, hsame⟩
  room hroom := h.length ▸ hroom

/-- Each slot is changed on its own, and stays the same in what counts. -/
theorem Grows.of_map {f : Nat → Slot → Slot} (hf : ∀ i (x : Slot), x.Same (f i x))
    (h : ∀ i, s'.slot? i = (s.slot? i).map (f i)) (hlen : s'.slots.length = s.slots.length) :
    Grows cfg s s' where
  forth i x hx := ⟨f i x, by rw [h, hx]; rfl, hf i x⟩
  back i x' hx' := by
    rw [h] at hx'
    obtain ⟨x, hx, rfl⟩ := Option.map_eq_some_iff.mp hx'
    exact .inl ⟨x, hx, hf i x⟩
  room hroom := hlen ▸ hroom

theorem SlotOp.exec_grows (op : SlotOp) (i : Nat) (slot : Slot) (s : Globals) :
    Grows cfg s (op.exec cfg i slot s).1 := by
  by_cases hop : op = .ready
  · subst hop
    refine .of_map (f := fun j x => if i = j then { x with ready := true } else x) (fun j x => ?_)
      (fun j => ?_) (List.length_modify ..)
    · split
      · exact ⟨rfl, rfl, rfl, rfl, .inl rfl⟩
      · exact .refl x
    · simp only [SlotOp.exec, Globals.slot?, Globals.modifySlot, List.getElem?_modify]
      split <;> simp
  · exact (SlotOp.exec_kept cfg hop i slot s).grows

theorem OpMove.grows {todo : List Op} {op : Op} {t : Thread} (h : OpMove cfg s todo op t) :
    Grows cfg s t.tables := by
  cases h with
  | look devs =>
    refine .of_map (f := fun _ x => x.look devs) (fun i x => ⟨rfl, rfl, rfl, rfl, .inl rfl⟩)
      (fun i => ?_) (List.length_map ..)
    simp [Globals.slot?, phaseA]
  | idle => exact ⟨fun i x hx => ⟨x, hx, .refl x⟩, fun i x hx => .inl ⟨x, hx, .refl x⟩, id⟩
  | refresh i => exact (clearReappeared_kept s i).grows
  | give d hnew hroom =>
    refine ⟨fun i x hx => ⟨x, ?_, .refl x⟩, fun i x hx => ?_, fun _ => ?_⟩
    · have hlt := (List.getElem?_eq_some_iff.mp hx).1
      rw [Globals.slot?, List.getElem?_append_left hlt]
      exact hx
    · rcases Nat.lt_or_ge i s.slots.length with hlt | hge
      · rw [Globals.slot?, List.getElem?_append_left hlt] at hx
        exact .inl ⟨x, hx, .refl x⟩
      · rw [Globals.slot?, List.getElem?_append_right hge] at hx
        obtain ⟨hi, rfl⟩ := List.getElem?_eq_some_iff.mp hx
        obtain rfl : i = s.slots.length := by
          simp only [List.length_singleton] at hi
          omega
        exact .inr (by simpa using newSlot_at d s.slots.length)
    · rw [List.length_append]
      exact hroom

/-! ## What a step keeps -/

theorem afterForwards_streams {job : Job} {slot : Slot} {op : SlotOp}
    (h : afterForwards cfg job = some op) : op.Streams slot := by
  cases job with
  | refresh => cases h
  | setup =>
    cases h
    trivial

theorem afterDst_streams {job : Job} {x slot : Slot} {op : SlotOp}
    (h : afterDst cfg job x = some op) (hbase : slot.streamBase = x.streamBase) :
    op.Streams slot := by
  unfold afterDst at h
  split at h
  · rename_i hne
    cases h
    exact ⟨by decide, hbase ▸ hne⟩
  · exact afterForwards_streams h

theorem notReached_streams {job : Job} {again : Bool} {slot : Slot} {op : SlotOp}
    (h : notReached job again = some op) : op.Streams slot := by
  unfold notReached at h
  split at h
  · cases h
  · cases h
    trivial

theorem slot?_setDst {i : Nat} {slot slot' : Slot} (hs : s.slot? i = some slot) {host : CString}
    {port : Int} (hs' : (Agent.setDst i host port s).slot? i = some slot') :
    slot'.streamBase = slot.streamBase := by
  rw [Agent.setDst, slot?_modifySlot, hs] at hs'
  cases hs'
  rfl

/-- The next stream port is one of the four, and the range has not been given up. -/
theorem SlotOp.Streams.exec {op op' : SlotOp} {i : Nat} {slot slot' : Slot}
    (hs : s.slot? i = some slot) (h : op.Streams slot)
    (hop' : (op.exec cfg i slot s).2 = some op')
    (hs' : (op.exec cfg i slot s).1.slot? i = some slot') : op'.Streams slot' := by
  cases op with
  | establish job =>
    simp only [SlotOp.exec] at hop' hs'
    split at hop'
    · cases hop'
      trivial
    · rename_i hw
      rw [if_neg hw] at hs'
      split at hop'
      · rename_i host port hd
        rw [hd] at hs'
        exact afterDst_streams hop' (slot?_setDst hs hs')
      · cases hop'
  | forward job again =>
    simp only [SlotOp.exec] at hop'
    split at hop'
    · cases hop'
      trivial
    · exact notReached_streams hop'
  | verify job again =>
    simp only [SlotOp.exec] at hop'
    split at hop'
    · cases hop'
      trivial
    · exact notReached_streams hop'
  | tcpip job =>
    cases hop'
    trivial
  | setDst job => exact afterDst_streams hop' (slot?_setDst hs hs')
  | stream job k =>
    have hslots := adbForward_slots slot.serial (slot.streamBase + k + locOffset) (streamBase + k) s
    simp only [SlotOp.exec] at hop' hs'
    rw [Globals.slot?, hslots] at hs'
    obtain rfl : slot = slot' := Option.some.inj (hs.symm.trans hs')
    split at hop'
    · cases hop'
      trivial
    · split at hop'
      · rename_i hlt
        cases hop'
        exact ⟨hlt, h.2⟩
      · exact afterForwards_streams hop'
  | giveUp job => exact afterForwards_streams hop'
  | listen k ips made =>
    cases ips with
    | nil =>
      simp only [SlotOp.exec, afterListen] at hop'
      cases k <;> (repeat' split at hop') <;> cases hop' <;> trivial
    | cons ip ips =>
      cases hop'
      trivial
  | ready => cases hop'

theorem addListenerOn_recorded (l : Listener) (made : Nat) (s : Globals) :
    (addListenerOn l made s).1.fwds = s.fwds ∧ (addListenerOn l made s).1.trace = s.trace := by
  simp only [addListenerOn]
  split
  · exact ⟨rfl, rfl⟩
  · split <;> exact ⟨rfl, rfl⟩

theorem start_recorded {answers : List Bool} (h : agentStep cfg s (.start answers) = some s') :
    s'.fwds = s.fwds ∧ s'.trace = s.trace := by
  have hfold : ∀ (ips : List CString) (p : Globals × Nat),
      let q := ips.foldl (fun (p : Globals × Nat) ip =>
        addListenerOn ⟨ip, cfg.discoveryPort, loopback, 0, none, true⟩ p.2 p.1) p
      q.1.fwds = p.1.fwds ∧ q.1.trace = p.1.trace := by
    intro ips
    induction ips with
    | nil => exact fun _ => ⟨rfl, rfl⟩
    | cons ip ips ih =>
      intro p
      obtain ⟨hfwds, htrace⟩ :=
        addListenerOn_recorded ⟨ip, cfg.discoveryPort, loopback, 0, none, true⟩ p.2 p.1
      obtain ⟨hfwds', htrace'⟩ :=
        ih (addListenerOn ⟨ip, cfg.discoveryPort, loopback, 0, none, true⟩ p.2 p.1)
      exact ⟨hfwds'.trans hfwds, htrace'.trans htrace⟩
  obtain rfl := agentStep_start cfg h
  exact hfold cfg.bindIps ({ s with answers := answers }, 0)

/-- A step of the work makes at most one forward, of a local port of the slot. -/
theorem SlotOp.exec_forwards {op : SlotOp} {i : Nat} {slot : Slot} (hat : slot.At cfg i)
    (hop : op.Streams slot) (s : Globals) :
    ((op.exec cfg i slot s).1.fwds = s.fwds ∧ (op.exec cfg i slot s).1.forwards = s.forwards) ∨
      ∃ loc dev, loc ∈ localPorts cfg i ∧
        (op.exec cfg i slot s).1 = (adbForward slot.serial loc dev s).1 := by
  cases op with
  | establish job =>
    refine .inl ?_
    simp only [SlotOp.exec]
    split
    · exact ⟨rfl, rfl⟩
    · split <;> exact ⟨rfl, rfl⟩
  | forward job again =>
    refine .inr ⟨slot.adbPort + locOffset, cfg.tcpipPort, ?_, rfl⟩
    rw [hat.adbPort]
    exact List.mem_cons_self
  | verify job again => exact .inl (verifyGuestAdb_recorded _ s)
  | tcpip job => exact .inl ⟨rfl, runCmd_forwards_of_ne (by simp) s⟩
  | setDst job => exact .inl ⟨rfl, rfl⟩
  | stream job k =>
    refine .inr ⟨slot.streamBase + k + locOffset, streamBase + k, ?_, rfl⟩
    rw [(hat.streamForward hop.2 k).2.1]
    exact List.mem_cons_of_mem _ (List.mem_map_of_mem (List.mem_range.mpr hop.1))
  | giveUp job => exact .inl ⟨rfl, rfl⟩
  | listen k ips made =>
    refine .inl ?_
    cases ips with
    | nil => exact ⟨rfl, rfl⟩
    | cons ip ips =>
      obtain ⟨hfwds, htrace⟩ := addListenerOn_recorded (slot.listener i ip k) made s
      refine ⟨hfwds, ?_⟩
      simp only [SlotOp.exec, Globals.forwards, htrace]
  | ready => exact .inl ⟨rfl, rfl⟩

theorem adbForward_mem {serial : CString} {loc dev : Int} {p : CString × Int}
    (h : p ∈ (adbForward serial loc dev s).1.fwds) : p ∈ s.fwds ∨ p = (serial, loc) := by
  rw [(adbForward_cases serial loc dev s).2] at h
  split at h
  · simpa using h
  · exact .inl h

/-- The slots are as the step leaves them, and the table is as it was. -/
theorem Tabled.of_same {t t' : Thread} (h : Tabled cfg t) (hgrows : Grows cfg t.tables t'.tables)
    (hfwds : t'.tables.fwds = t.tables.fwds) (hforwards : t'.tables.forwards = t.tables.forwards)
    (hwork : ∀ i op, t'.work = some (i, op) → ∀ slot, t'.tables.slot? i = some slot →
      op.Streams slot) : Tabled cfg t' where
  room := hgrows.room h.room
  slot i slot hs := by
    rcases hgrows.back i slot hs with ⟨x, hx, hsame⟩ | hat
    · exact (h.slot i x hx).mono hsame
    · exact hat
  recorded := h.recorded.of_same hfwds hforwards
  ports p hp := hgrows.localPairs (h.ports p (hfwds ▸ hp))
  work := hwork

theorem Tabled.next {t t' : Thread} (h : Tabled cfg t) (ht : t.next cfg = some t') :
    Tabled cfg t' := by
  rcases Thread.next_cases cfg ht with ⟨i, op, slot, hwork, hs, rfl⟩ | ⟨op, todo, -, -, hmove⟩
  · have hgrows : Grows cfg t.tables (op.exec cfg i slot t.tables).1 := op.exec_grows i slot t.tables
    have hat := h.slot i slot hs
    have hop := h.work i op hwork slot hs
    have hwork' : ∀ j op', ((op.exec cfg i slot t.tables).2.map fun op => (i, op)) = some (j, op') →
        ∀ slot', (op.exec cfg i slot t.tables).1.slot? j = some slot' → op'.Streams slot' := by
      intro j op' hmap slot' hs'
      obtain ⟨op'', hop'', heq⟩ := Option.map_eq_some_iff.mp hmap
      cases heq
      exact hop.exec hs hop'' hs'
    rcases op.exec_forwards hat hop t.tables with ⟨hfwds, hforwards⟩ | ⟨loc, dev, hloc, heq⟩
    · exact h.of_same hgrows hfwds hforwards hwork'
    · refine ⟨hgrows.room h.room, fun j x' hx' => ?_, ?_, fun p hp => ?_, hwork'⟩
      · rcases hgrows.back j x' hx' with ⟨x, hx, hsame⟩ | hat'
        · exact (h.slot j x hx).mono hsame
        · exact hat'
      · simp only [heq]
        exact h.recorded.forward h.hasRoom slot.serial loc dev
      · simp only [heq] at hp
        rcases adbForward_mem hp with hold | rfl
        · exact hgrows.localPairs (h.ports p hold)
        · refine hgrows.localPairs (mem_localPairs.mpr ⟨slot, List.mem_of_getElem? hs, rfl, ?_⟩)
          rw [hat.idx]
          exact hloc
  · have hgrows := hmove.grows
    cases hmove with
    | look devs => exact h.of_same hgrows rfl rfl fun i op hop => by cases hop
    | idle => exact h.of_same hgrows rfl rfl fun i op hop => by cases hop
    | refresh i =>
      refine h.of_same hgrows rfl rfl fun j op hop slot _ => ?_
      cases hop
      trivial
    | give d =>
      refine h.of_same hgrows rfl rfl fun j op hop slot _ => ?_
      cases hop
      trivial

theorem Tabled.step {t t' : Thread} {a : ThreadAct} (h : Tabled cfg t)
    (ht : threadStep cfg t a = some t') : Tabled cfg t' := by
  cases a with
  | start answers =>
    obtain ⟨s, hs, rfl⟩ := Option.map_eq_some_iff.mp ht
    obtain ⟨hfwds, htrace⟩ := start_recorded hs
    refine h.of_same (start_kept cfg hs).grows hfwds ?_ fun i op hop => by cases hop
    rw [Globals.forwards, htrace, Globals.forwards]
  | rescan devs answers =>
    obtain rfl := threadStep_rescan cfg ht
    exact ⟨h.room, h.slot, h.recorded.of_same rfl rfl, h.ports, fun i op hop => by cases hop⟩
  | step => exact h.next ht

theorem tabled_init : Tabled cfg (threadLts cfg).init := by
  refine ⟨Nat.zero_le _, fun i slot hs => ?_, ⟨List.nodup_nil, fun p => ?_⟩, fun p hp => ?_,
    fun i op hop => ?_⟩
  · simp [threadLts, Globals.empty, Globals.slot?] at hs
  · exact Iff.rfl
  · cases hp
  · cases hop

theorem removal_injective :
    Function.Injective fun f : CString × Int => (⟨f.1, f.2⟩ : Removal) := by
  rintro ⟨serial, loc⟩ ⟨serial', loc'⟩ h
  obtain ⟨hserial, hloc⟩ := Removal.mk.inj h
  exact Prod.ext hserial hloc

/-- **The table of forwards is exact**: at every step of every rescan it holds each pair
that was ever forwarded, once, and has room for more; `cleanup_forwards` removes each of
them once, and nothing else. -/
theorem forwards_recorded (cfg : Config) (as : List ThreadAct) {t : Thread}
    (hrun : (threadLts cfg).run (threadLts cfg).init as = some t) :
    t.tables.fwds.Nodup ∧
      (∀ p, p ∈ t.tables.fwds ↔ ∃ f ∈ t.tables.forwards, (f.serial, f.locPort) = p) ∧
      t.tables.fwds.length < maxFwds ∧
      ∀ answers, let left := cleanupForwards { t.tables with answers := answers }
        left.1.fwds = [] ∧ (left.2.map Prod.fst).Nodup ∧
          ∀ r, r ∈ left.2.map Prod.fst ↔
            ∃ f ∈ t.tables.forwards, f.serial = r.serial ∧ f.locPort = r.locPort := by
  have htabled : Tabled cfg t :=
    Lts.invariant (I := Tabled cfg) (fun _ _ _ hi hstep => hi.step hstep) tabled_init hrun
  have hsame : ∀ p, p ∈ t.tables.fwds ↔ ∃ f ∈ t.tables.forwards, (f.serial, f.locPort) = p := by
    intro p
    rw [htabled.recorded.same, Globals.forwarded, List.mem_map]
    rfl
  refine ⟨htabled.recorded.distinct, hsame, htabled.hasRoom, fun answers => ?_⟩
  have hremovals := cleanupForwards_removals { t.tables with answers := answers }
  refine ⟨?_, ?_, fun r => ?_⟩
  · exact cleanupForwards_fwds _
  · rw [hremovals]
    exact List.Nodup.map removal_injective htabled.recorded.distinct
  · rw [hremovals, List.mem_map]
    constructor
    · rintro ⟨p, hp, rfl⟩
      obtain ⟨f, hf, rfl⟩ := (hsame p).mp hp
      exact ⟨f, hf, rfl, rfl⟩
    · rintro ⟨f, hf, hserial, hloc⟩
      exact ⟨(f.serial, f.locPort), (hsame _).mpr ⟨f, hf, rfl⟩, by rw [hserial, hloc]⟩

/-- An emulator goes away and comes back, and its forwards are made again. -/
def replugRun : List ThreadAct :=
  [.start [true], .rescan (some [emulator]) (List.replicate 14 true)] ++
    List.replicate 22 ThreadAct.step ++
    [.rescan (some []) []] ++ List.replicate 2 ThreadAct.step ++
    [.rescan (some [emulator]) (List.replicate 8 true)] ++ List.replicate 12 ThreadAct.step

theorem forwards_recorded_replug : ∃ t,
    (threadLts (.default [])).run (threadLts (.default [])).init replugRun = some t ∧
      t.tables.forwards.length = 10 ∧ t.tables.fwds.length = 5 ∧
      t.tables.fwds.Nodup ∧ ((cleanupForwards { t.tables with answers := [] }).2.map
        Prod.fst).Nodup := by
  have hrun : ((threadLts (.default [])).run (threadLts (.default [])).init replugRun).isSome =
      true := by decide
  obtain ⟨t, ht⟩ := Option.isSome_iff_exists.mp hrun
  have hall := forwards_recorded (.default []) replugRun ht
  have hlengths : ((threadLts (.default [])).run (threadLts (.default [])).init replugRun).map
      (fun t => (t.tables.forwards.length, t.tables.fwds.length)) = some (10, 5) := by decide
  rw [ht, Option.map_some, Option.some.injEq, Prod.mk.injEq] at hlengths
  exact ⟨t, ht, hlengths.1, hlengths.2, hall.1, (hall.2.2.2 []).2.1⟩

end RigControl.Agent
