import Mathlib.Data.List.Dedup
import Mathlib.Data.List.Perm.Subperm
import RigControl.Agent.Routing

/-!
# Relays that lead back into the agent

A program on the agent's host may connect adb to one of the agent's own public ports;
adb then lists that address as a wireless device, and `rescan_once` gives it a slot
whose relay leads back into the agent. Nothing in the code keeps such a serial out.
What has to keep it out is `NamesNoOwn`: as long as no serial that has a slot, or may
get one, is an address the agent listens on by then, no relay leads back.
-/

namespace RigControl.Agent

open RigControl.Lib

/-- A relay whose destination is an address on which the agent listens. -/
def Globals.ChainsBack (s : Globals) : Prop :=
  ∃ l ∈ s.listeners, l.isDiscovery = false ∧
    ∃ m ∈ s.listeners, l.dstHost = m.ip ∧ l.dstPort = m.pubPort

instance (s : Globals) : Decidable s.ChainsBack :=
  inferInstanceAs (Decidable (∃ l ∈ s.listeners, l.isDiscovery = false ∧
    ∃ m ∈ s.listeners, l.dstHost = m.ip ∧ l.dstPort = m.pubPort))

variable (cfg : Config)

/-- The ports that the agent may have opened with `n` slots. -/
def publicPort (n : Nat) (port : Int) : Bool :=
  port = cfg.discoveryPort || (List.range n).any fun i =>
    port = cfg.adbBase + i ||
      (!cfg.noStream && (List.range streamCount).any fun k => port = streamPort i k)

/-- A wireless serial that is a public address of the agent. -/
def ownAddress (n : Nat) (serial : CString) : Bool :=
  devKind serial = .wireless &&
    match wirelessDst serial with
    | some (host, port) => cfg.bindIps.contains host && publicPort cfg n port
    | none => false

/-- The local ports that are forwarded are no public ports. -/
def PortsApart : Prop :=
  ∀ i < maxSlots, publicPort cfg maxSlots (cfg.adbBase + i + locOffset) = false ∧
    (cfg.noStream = false →
      ∀ k < streamCount, publicPort cfg maxSlots (streamPort i k + locOffset) = false)

instance : Decidable (PortsApart cfg) :=
  inferInstanceAs (Decidable (∀ i < maxSlots,
    publicPort cfg maxSlots (cfg.adbBase + i + locOffset) = false ∧
    (cfg.noStream = false →
      ∀ k < streamCount, publicPort cfg maxSlots (streamPort i k + locOffset) = false)))

def Globals.serials (s : Globals) : List CString := s.slots.map Slot.serial

/-- The serials in the list that have no slot yet. -/
def newSerials (s : Globals) (devs : List Dev) : List CString :=
  ((devs.take 64).map Dev.serial).dedup.filter fun serial => serial ∉ s.serials

/-- The number of slots after a rescan. -/
def slotsAfter (s : Globals) (devs : List Dev) : Nat :=
  min maxSlots (s.slots.length + (newSerials s devs).length)

/-- No serial that has a slot, and no new one while there is a slot to give, is a public
address of the agent. -/
def NamesNoOwn (s : Globals) : AgentAct → Prop
  | .rescan (some devs) _ =>
    (∀ serial ∈ s.serials, ownAddress cfg (slotsAfter s devs) serial = false) ∧
      (s.slots.length < maxSlots →
        ∀ serial ∈ newSerials s devs, ownAddress cfg (slotsAfter s devs) serial = false)
  | _ => True

instance (s : Globals) (a : AgentAct) : Decidable (NamesNoOwn cfg s a) := by
  rcases a with _ | ⟨_ | _, _⟩ <;> simp only [NamesNoOwn] <;> infer_instance

variable {cfg} {D : Dev → Prop} {s s' : Globals}

theorem publicPort_mono {n m : Nat} (h : n ≤ m) {port : Int} (hp : publicPort cfg n port = true) :
    publicPort cfg m port = true := by
  simp only [publicPort, Bool.or_eq_true, List.any_eq_true, List.mem_range] at hp ⊢
  refine hp.imp id ?_
  rintro ⟨i, hi, hport⟩
  exact ⟨i, Nat.lt_of_lt_of_le hi h, hport⟩

theorem ownAddress_iff {n : Nat} {serial : CString} : ownAddress cfg n serial = true ↔
    devKind serial = .wireless ∧ ∃ host port, wirelessDst serial = some (host, port) ∧
      host ∈ cfg.bindIps ∧ publicPort cfg n port = true := by
  simp only [ownAddress, Bool.and_eq_true, decide_eq_true_eq]
  refine and_congr_right fun _ => ?_
  cases hd : wirelessDst serial with
  | none => simp
  | some p =>
    obtain ⟨host, port⟩ := p
    simp

theorem ownAddress_mono {n m : Nat} (h : n ≤ m) {serial : CString}
    (hm : ownAddress cfg m serial = false) : ownAddress cfg n serial = false := by
  by_contra hn
  rw [Bool.not_eq_false, ownAddress_iff] at hn
  obtain ⟨hk, host, port, hd, hip, hp⟩ := hn
  have hown : ownAddress cfg m serial = true :=
    ownAddress_iff.mpr ⟨hk, host, port, hd, hip, publicPort_mono h hp⟩
  rw [hm] at hown
  cases hown

/-! ## The serials of a rescan -/

theorem serials_eq_of_same {f : Slot → Slot} (i : Nat) (hf : ∀ x : Slot, x.Same (f x)) :
    (s.modifySlot i f).serials = s.serials :=
  map_serial_modify s.slots i hf

theorem serials_phaseA (devs : List Dev) : (phaseA devs s).serials = s.serials := by
  rw [Globals.serials, phaseA, List.map_map]
  rfl

/-- A serial that has a slot had one before, or it is one of the devices. -/
theorem Steps.serials (h : Steps cfg D s s') : ∀ serial ∈ s'.serials,
    serial ∈ s.serials ∨ (s.slots.length < maxSlots ∧ ∃ d, D d ∧ serial = d.serial) := by
  induction h with
  | refl => exact fun serial hserial => .inl hserial
  | tail hmid he ih =>
    cases he with
    | answers as => exact ih
    | fwds fs => exact ih
    | warned => exact ih
    | command c ok hc => exact ih
    | listen i slot l hs hserve hip => exact ih
    | update i f hf =>
      rw [serials_eq_of_same i hf]
      exact ih
    | look devs =>
      rw [serials_phaseA]
      exact ih
    | give d hd hnew hroom =>
      intro serial hserial
      rw [Globals.serials, List.map_append, List.mem_append] at hserial
      rcases hserial with hserial | hserial
      · exact ih serial hserial
      · have hlen := (Steps.extends hmid).length_le
        refine .inr ⟨by omega, d, hd, ?_⟩
        simpa [newSlot_serial] using hserial

/-- After a rescan a serial that has a slot had one before, or it is new and there was
room for it. -/
theorem rescanOnce_serials (devs : List Dev) : ∀ serial ∈ (rescanOnce cfg (some devs) s).serials,
    serial ∈ s.serials ∨ (s.slots.length < maxSlots ∧ serial ∈ newSerials s devs) := by
  intro serial hserial
  by_cases hmem : serial ∈ s.serials
  · exact .inl hmem
  rcases Steps.serials (rescanOnce_steps cfg (some devs) s) serial hserial with
    hs | ⟨hroom, d, ⟨ds, hds, hd⟩, rfl⟩
  · exact .inl hs
  · cases hds
    refine .inr ⟨hroom, List.mem_filter.mpr ⟨?_, by simpa using hmem⟩⟩
    exact List.mem_dedup.mpr (List.mem_map_of_mem hd)

/-- There are never more slots than `slotsAfter` says. -/
theorem slots_le_slotsAfter (hi : Inv cfg s') {devs : List Dev}
    (h : ∀ serial ∈ s'.serials, serial ∈ s.serials ∨ serial ∈ newSerials s devs) :
    s'.slots.length ≤ slotsAfter s devs := by
  have hsub : s'.serials ⊆ s.serials ++ newSerials s devs := fun serial hserial =>
    List.mem_append.mpr (h serial hserial)
  have hlen := (List.subperm_of_subset hi.distinct hsub).length_le
  simp only [Globals.serials, List.length_append, List.length_map] at hlen
  exact Nat.le_min.mpr ⟨hi.room, hlen⟩

/-! ## No relay leads back -/

/-- What every step keeps that names no address of the agent. -/
structure Clear (cfg : Config) (s : Globals) : Prop where
  inv : Inv cfg s
  serials : ∀ serial ∈ s.serials, ownAddress cfg s.slots.length serial = false

theorem Clear.step (h : Clear cfg s) {a : AgentAct} (hn : NamesNoOwn cfg s a)
    (hstep : agentStep cfg s a = some s') : Clear cfg s' := by
  refine ⟨(h.inv.step hstep).1, ?_⟩
  have hi' : Inv cfg s' := (h.inv.step hstep).1
  cases a with
  | start answers =>
    obtain rfl := agentStep_start cfg hstep
    rw [Globals.serials, addListener_slots]
    exact h.serials
  | rescan devs answers =>
    obtain rfl := agentStep_rescan cfg hstep
    cases devs with
    | none => exact h.serials
    | some devs =>
      obtain ⟨hold, hnew⟩ := hn
      have hcase : ∀ serial ∈ (rescanOnce cfg (some devs) { s with answers := answers }).serials,
          serial ∈ s.serials ∨ (s.slots.length < maxSlots ∧ serial ∈ newSerials s devs) :=
        rescanOnce_serials devs
      have hlen := slots_le_slotsAfter hi' fun serial hserial => (hcase serial hserial).imp id And.right
      intro serial hserial
      rcases hcase serial hserial with hs | ⟨hroom, hs⟩
      · exact ownAddress_mono hlen (hold serial hs)
      · exact ownAddress_mono hlen (hnew hroom serial hs)

theorem clear_empty : Clear cfg Globals.empty := ⟨inv_empty, fun _ h => by cases h⟩

/-- The port of a listener is one that the agent may have opened. -/
theorem Inv.publicPort (hi : Inv cfg s) {m : Listener} (hm : m ∈ s.listeners) :
    publicPort cfg s.slots.length m.pubPort = true := by
  have hlt : ∀ i slot, s.slot? i = some slot → i < s.slots.length := fun i slot hs =>
    (List.getElem?_eq_some_iff.mp hs).1
  simp only [Agent.publicPort, Bool.or_eq_true, decide_eq_true_eq, List.any_eq_true,
    List.mem_range, Bool.and_eq_true, Bool.not_eq_true']
  cases (hi.listener m hm).2 with
  | discovery ip => exact .inl rfl
  | adb ip host port i slot hs hdst => exact .inr ⟨i, hlt i slot hs, .inl rfl⟩
  | stream ip i k slot hs hk hno hmade =>
    exact .inr ⟨i, hlt i slot hs, .inr ⟨hno, k, hk, rfl⟩⟩

theorem Clear.wireless (h : Clear cfg s) {serial : CString} (hs : serial ∈ s.serials)
    (hk : devKind serial = .wireless) {m : Listener} (hm : m ∈ s.listeners) :
    wirelessDst serial ≠ some (m.ip, m.pubPort) := by
  intro hd
  have hown : ownAddress cfg s.slots.length serial = true :=
    ownAddress_iff.mpr ⟨hk, m.ip, m.pubPort, hd, (h.inv.listener m hm).1, h.inv.publicPort hm⟩
  rw [h.serials serial hs] at hown
  cases hown

theorem Clear.not_chainsBack (h : Clear cfg s) (hports : PortsApart cfg) : ¬s.ChainsBack := by
  rintro ⟨l, hl, hdisc, m, hm, hhost, hport⟩
  -- a forwarded port is no port of a listener
  have hpub : ∀ port, publicPort cfg maxSlots port = false → port ≠ m.pubPort := by
    rintro port hp rfl
    rw [publicPort_mono h.inv.room (h.inv.publicPort hm)] at hp
    cases hp
  have hlt : ∀ i slot, s.slot? i = some slot → i < maxSlots := fun i slot hs =>
    Nat.lt_of_lt_of_le (List.getElem?_eq_some_iff.mp hs).1 h.inv.room
  cases (h.inv.listener l hl).2 with
  | discovery ip => cases hdisc
  | adb ip host port i slot hs hdst =>
    unfold adbDst at hdst
    split at hdst
    · cases hdst
      exact hpub _ (hports i (hlt i slot hs)).1 hport
    · rename_i hk
      have hmem : slot.serial ∈ s.serials := List.mem_map_of_mem (List.mem_of_getElem? hs)
      refine h.wireless hmem (not_not.mp hk) hm ?_
      rw [hdst, ← hhost, ← hport]
  | stream ip i k slot hs hk hno hmade =>
    exact hpub _ ((hports i (hlt i slot hs)).2 hno k hk) hport

def phone : Dev := ⟨['A'], ['m'], by decide⟩
def tablet : Dev :=
  ⟨['1', '9', '2', '.', '0', '.', '2', '.', '7', ':', '5', '5', '5', '5'], [], by decide⟩

/-- Two devices, and both are gone later. -/
def plainRun : List AgentAct :=
  [.start [true], .rescan (some [phone, tablet]) (List.replicate 30 true),
    .rescan (some []) [], .rescan none []]

/-- The first public adb port, as adb names it when a program has connected to it. -/
def ownPort : Dev :=
  ⟨['1', '2', '7', '.', '0', '.', '0', '.', '1', ':', '1', '5', '5', '5', '3'], [], by decide⟩

end RigControl.Agent
