import RigControl.Agent.Advertised

/-!
# The forwards behind the list

adb drops the forwards of a device that goes away. Phase A marks a slot present as soon
as its serial is back, and the discovery port lists it from then on; its forwards are
made again afterwards, or not at all when the refresh fails. So the forwards behind a
line are newer than the last absence of its device in the runs in which no slot with
forwards comes back (`listed_forwarded`).
-/

namespace RigControl.Agent

open RigControl.Lib

def Slot.line (slot : Slot) : DeviceLine :=
  ⟨slot.adbPort, slot.kind, slot.serial, slot.model, slot.streamBase⟩

variable (cfg : Config)

/-- The adb port of an emulator or a USB device depends on a forward. -/
def Slot.adbNeeds (slot : Slot) : List Forward :=
  if slot.kind ≠ .wireless then [⟨slot.serial, slot.adbPort + locOffset, cfg.tcpipPort⟩] else []

def Slot.streamNeeds (slot : Slot) : List Forward :=
  if 0 < slot.streamBase then (List.range streamCount).map slot.streamForward else []

def Slot.needs (slot : Slot) : List Forward := slot.adbNeeds cfg ++ slot.streamNeeds

/-- The forwards made between two states. -/
def madeSince (u s : Globals) : List Forward :=
  (s.trace.drop u.trace.length).filterMap AdbCmd.made

def Globals.Absent (s : Globals) (i : Nat) : Prop :=
  ∀ slot, s.slot? i = some slot → slot.present = false

/-- No slot that needs a forward is ready, absent, and in the list of devices. -/
def NeedyReturns (s : Globals) (devs : List Dev) : Prop :=
  ∃ slot ∈ s.slots, slot.ready = true ∧ slot.present = false ∧
    (∃ d ∈ devs, slot.serial = d.serial) ∧ slot.needs cfg ≠ []

def NoneReturns (t : Thread) : ThreadAct → Prop
  | .rescan (some devs) _ => ¬NeedyReturns cfg t.tables (devs.take 64)
  | _ => True

instance (s : Globals) (devs : List Dev) : Decidable (NeedyReturns cfg s devs) :=
  inferInstanceAs (Decidable (∃ slot ∈ s.slots, _))

instance (t : Thread) (a : ThreadAct) : Decidable (NoneReturns cfg t a) := by
  unfold NoneReturns
  split <;> infer_instance

/-! ## What a set-up has made -/

/-- The forwards that a set-up has made so far. -/
def SlotOp.Backed (made : List Forward) (slot : Slot) : SlotOp → Prop
  | .verify .setup _ | .setDst .setup | .giveUp .setup => slot.adbNeeds cfg ⊆ made
  | .stream .setup k => slot.adbNeeds cfg ⊆ made ∧ ∀ j < k, slot.streamForward j ∈ made
  | .listen .. | .ready => slot.needs cfg ⊆ made
  | _ => True

/-- A slot is set up while it is there, and phase A comes first. -/
structure InPlace (t : Thread) : Prop where
  work : ∀ i op, t.work = some (i, op) → op.setsUp = true →
    ∀ slot, t.tables.slot? i = some slot → slot.present = true
  look : ∀ devs, .look devs ∈ t.todo → t.work = none ∧ t.todo = [.look devs] ∧
    ¬NeedyReturns cfg t.tables devs

/-- What is known of the slot `i` after a moment at which it was absent. -/
structure Since (u : Globals) (i : Nat) (t : Thread) : Prop where
  trace : u.trace <+: t.tables.trace
  listed : ∀ slot, t.tables.slot? i = some slot → slot.ready = true → slot.present = true →
    slot.needs cfg ⊆ madeSince u t.tables
  work : ∀ op, t.work = some (i, op) → ∀ slot, t.tables.slot? i = some slot →
    op.Backed cfg (madeSince u t.tables) slot

variable {cfg} {u s s' : Globals}

theorem madeSince_mono (hu : u.trace <+: s.trace) (hs : s.trace <+: s'.trace) :
    madeSince u s ⊆ madeSince u s' := by
  obtain ⟨new, hnew⟩ := hs
  unfold madeSince
  rw [← hnew, List.drop_append_of_le_length hu.length_le, List.filterMap_append]
  exact List.subset_append_left ..

/-- A forward that succeeds is one of those made since. -/
theorem adbForward_since (hu : u.trace <+: s.trace) {serial : CString} {loc dev : Int}
    (hok : (adbForward serial loc dev s).2 = true) :
    ⟨serial, loc, dev⟩ ∈ madeSince u (adbForward serial loc dev s).1 := by
  unfold madeSince
  rw [adbForward_trace, hok, List.drop_append_of_le_length hu.length_le, List.filterMap_append]
  exact List.mem_append_right _ (List.mem_singleton.mpr rfl)

theorem Slot.streamNeeds_zero {slot : Slot} (h : slot.streamBase = 0) : slot.streamNeeds = [] := by
  simp [Slot.streamNeeds, h]

/-- What a slot needs can only get less. -/
theorem Slot.Same.needs {x y : Slot} (h : x.Same y) : y.needs cfg ⊆ x.needs cfg := by
  have hadb : y.adbNeeds cfg = x.adbNeeds cfg := by
    unfold Slot.adbNeeds
    rw [h.kind, h.serial, h.adbPort]
  have hstream : y.streamNeeds ⊆ x.streamNeeds := by
    rcases h.streamBase with hb | hb
    · unfold Slot.streamNeeds Slot.streamForward
      rw [hb, h.serial]
      exact List.Subset.refl _
    · rw [Slot.streamNeeds_zero hb]
      exact List.nil_subset _
  unfold Slot.needs
  rw [hadb]
  exact List.append_subset.mpr
    ⟨List.subset_append_left .., List.Subset.trans hstream (List.subset_append_right ..)⟩

/-- Once the adb port is reached and the stream ports are forwarded or given up. -/
theorem afterForwards_backed {made : List Forward} {job : Job} {slot : Slot} {op : SlotOp}
    (h : afterForwards cfg job = some op) (hneeds : job = .setup → slot.needs cfg ⊆ made) :
    op.Backed cfg made slot := by
  cases job with
  | refresh => cases h
  | setup =>
    cases h
    exact hneeds rfl

theorem afterDst_backed {made : List Forward} {job : Job} {x slot : Slot} {op : SlotOp}
    (h : afterDst cfg job x = some op) (hbase : slot.streamBase = x.streamBase)
    (hadb : job = .setup → slot.adbNeeds cfg ⊆ made) : op.Backed cfg made slot := by
  unfold afterDst at h
  split at h
  · cases h
    cases job with
    | refresh => trivial
    | setup => exact ⟨hadb rfl, fun j hj => absurd hj (Nat.not_lt_zero j)⟩
  · rename_i hzero
    refine afterForwards_backed h fun hjob => ?_
    have hzero' : slot.streamBase = 0 := hbase.trans (by simpa using hzero)
    unfold Slot.needs
    rw [Slot.streamNeeds_zero hzero', List.append_nil]
    exact hadb hjob

theorem notReached_backed {made : List Forward} {job : Job} {again : Bool} {slot : Slot}
    {op : SlotOp} (h : notReached job again = some op) : op.Backed cfg made slot := by
  unfold notReached at h
  split at h
  · cases h
  · cases h
    trivial

section

variable {i : Nat} {slot : Slot} {op' : SlotOp}

/-- The forward to the adb port succeeds, or the slot is not reached. -/
theorem forward_backed {job : Job} {again : Bool} (hu : u.trace <+: s.trace)
    (hop' : (SlotOp.exec cfg i slot s (.forward job again)).2 = some op') :
    op'.Backed cfg (madeSince u (SlotOp.exec cfg i slot s (.forward job again)).1) slot := by
  simp only [SlotOp.exec] at hop' ⊢
  split at hop'
  · rename_i hok
    cases hop'
    cases job with
    | refresh => trivial
    | setup =>
      intro f hf
      unfold Slot.adbNeeds at hf
      split at hf
      · rw [List.mem_singleton.mp hf]
        exact adbForward_since hu hok
      · cases hf
  · exact notReached_backed hop'

theorem verify_backed {job : Job} {again : Bool} (hu : u.trace <+: s.trace)
    (h : (SlotOp.verify job again).Backed cfg (madeSince u s) slot)
    (hop' : (SlotOp.exec cfg i slot s (.verify job again)).2 = some op') :
    op'.Backed cfg (madeSince u (SlotOp.exec cfg i slot s (.verify job again)).1) slot := by
  have hran := verifyGuestAdb_ran (slot.adbPort + locOffset) s
  simp only [SlotOp.exec] at hop' ⊢
  split at hop'
  · cases hop'
    cases job with
    | refresh => trivial
    | setup => exact List.Subset.trans h (madeSince_mono hu hran.trace)
  · exact notReached_backed hop'

/-- A forward for a stream port: the ports before it and this one, or none. -/
theorem stream_backed {job : Job} {k : Nat} (hu : u.trace <+: s.trace)
    (h : (SlotOp.stream job k).Backed cfg (madeSince u s) slot)
    (hop' : (SlotOp.exec cfg i slot s (.stream job k)).2 = some op') :
    op'.Backed cfg (madeSince u (SlotOp.exec cfg i slot s (.stream job k)).1) slot := by
  have hran := adbForward_ran slot.serial (slot.streamBase + k + locOffset) (streamBase + k) s
  have hmono := madeSince_mono hu hran.trace
  simp only [SlotOp.exec] at hop' ⊢
  split at hop'
  · cases hop'
    cases job with
    | refresh => trivial
    | setup => exact List.Subset.trans h.1 hmono
  · rename_i hok
    have hk : slot.streamForward k ∈ madeSince u (adbForward slot.serial
        (slot.streamBase + k + locOffset) (streamBase + k) s).1 :=
      adbForward_since hu (by simpa using hok)
    have hall : job = .setup → ∀ j < k + 1, slot.streamForward j ∈ madeSince u (adbForward
        slot.serial (slot.streamBase + k + locOffset) (streamBase + k) s).1 := by
      rintro rfl j hj
      rcases Nat.lt_succ_iff_lt_or_eq.mp hj with hlt | rfl
      · exact hmono (h.2 j hlt)
      · exact hk
    split at hop'
    · cases hop'
      cases job with
      | refresh => trivial
      | setup => exact ⟨List.Subset.trans h.1 hmono, hall rfl⟩
    · rename_i hlast
      refine afterForwards_backed hop' fun hjob => ?_
      have hstreams := hall hjob
      subst hjob
      refine List.append_subset.mpr ⟨List.Subset.trans h.1 hmono, fun f hf => ?_⟩
      unfold Slot.streamNeeds at hf
      split at hf
      · obtain ⟨j, hj, rfl⟩ := List.mem_map.mp hf
        have hj' := List.mem_range.mp hj
        exact hstreams j (by omega)
      · cases hf

/-- The listeners are made once everything is forwarded. -/
theorem listen_backed {k : Option Nat} {ips : List CString} {made : Nat} {slot' : Slot}
    (hneeds : slot'.needs cfg ⊆ madeSince u (SlotOp.exec cfg i slot s (.listen k ips made)).1)
    (hop' : (SlotOp.exec cfg i slot s (.listen k ips made)).2 = some op') :
    op'.Backed cfg (madeSince u (SlotOp.exec cfg i slot s (.listen k ips made)).1) slot' := by
  cases ips with
  | nil =>
    cases k with
    | none =>
      simp only [SlotOp.exec, afterListen] at hop'
      split at hop'
      · cases hop'
      · split at hop' <;> · cases hop'; exact hneeds
    | some k =>
      simp only [SlotOp.exec, afterListen] at hop'
      split at hop' <;> · cases hop'; exact hneeds
  | cons ip ips =>
    cases hop'
    exact hneeds

end

/-- What is forwarded before a step for a slot gives what is forwarded before the next. -/
theorem SlotOp.Backed.exec {op : SlotOp} {i : Nat} {slot : Slot} (hu : u.trace <+: s.trace)
    (hs : s.slot? i = some slot) (h : op.Backed cfg (madeSince u s) slot) {op' : SlotOp}
    (hop' : (op.exec cfg i slot s).2 = some op') {slot' : Slot}
    (hs' : (op.exec cfg i slot s).1.slot? i = some slot') :
    op'.Backed cfg (madeSince u (op.exec cfg i slot s).1) slot' := by
  have hdst : ∀ host port, (Agent.setDst i host port s).slot? i = some slot' →
      slot' = { slot with adbDstHost := host, adbDstPort := port } := by
    intro host port hget
    rw [Agent.setDst, slot?_modifySlot, hs] at hget
    exact (Option.some.inj hget).symm
  cases op with
  | establish job =>
    simp only [SlotOp.exec] at hop' hs' ⊢
    split at hop'
    · cases hop'
      cases job <;> trivial
    · rename_i hw
      split at hop'
      · rename_i host port hd
        rw [if_neg hw, hd] at hs'
        obtain rfl := hdst host port hs'
        refine afterDst_backed hop' rfl fun _ => ?_
        have hnone : Slot.adbNeeds cfg { slot with adbDstHost := host, adbDstPort := port } = [] :=
          if_neg hw
        rw [hnone]
        exact List.nil_subset _
      · cases hop'
  | forward job again =>
    obtain rfl := slot_of_slots_eq hs (adbForward_ran ..).slots hs'
    exact forward_backed hu hop'
  | verify job again =>
    obtain rfl := slot_of_slots_eq hs (verifyGuestAdb_ran ..).slots hs'
    exact verify_backed hu h hop'
  | tcpip job =>
    cases hop'
    cases job <;> trivial
  | setDst job =>
    obtain rfl := hdst _ _ hs'
    refine afterDst_backed hop' rfl fun hjob => ?_
    subst hjob
    exact h
  | stream job k =>
    obtain rfl := slot_of_slots_eq hs (adbForward_ran ..).slots hs'
    exact stream_backed hu h hop'
  | giveUp job =>
    simp only [SlotOp.exec, slot?_modifySlot, hs] at hs'
    obtain rfl := (Option.some.inj hs').symm
    refine afterForwards_backed hop' fun hjob => ?_
    subst hjob
    unfold Slot.needs
    rw [Slot.streamNeeds_zero rfl, List.append_nil]
    exact h
  | listen k ips made =>
    have hkept := @SlotOp.exec_kept cfg (.listen k ips made) (by simp) i slot s
    obtain ⟨x, hx, hsame, -, -⟩ := hkept.slot i slot hs
    obtain rfl : slot' = x := Option.some.inj (hs'.symm.trans hx)
    exact listen_backed (List.Subset.trans hsame.needs
      (List.Subset.trans h (madeSince_mono hu hkept.trace))) hop'
  | ready => cases hop'

theorem InPlace.next {t t' : Thread} (h : InPlace cfg t) (ht : t.next cfg = some t') :
    InPlace cfg t' := by
  rcases Thread.next_cases cfg ht with ⟨i, op, slot, hwork, hs, rfl⟩ | ⟨op, todo, -, htodo, hmove⟩
  · refine ⟨fun j op' hop' hsets x' hx' => ?_, fun devs hdevs => ?_⟩
    · obtain ⟨op'', hop'', heq⟩ := Option.map_eq_some_iff.mp hop'
      cases heq
      have hop : op ≠ .ready := by
        rintro rfl
        cases hop''
      obtain ⟨x, hx, -, hpresent, -⟩ := (SlotOp.exec_kept cfg hop i slot t.tables).back hx'
      rw [hpresent]
      exact h.work i op hwork (SlotOp.setsUp_exec hop'' hsets) x hx
    · obtain ⟨hnone, -⟩ := h.look devs hdevs
      rw [hwork] at hnone
      cases hnone
  · -- phase A is only ever the first of what is to be done
    have hrest : ∀ devs, .look devs ∉ todo := by
      intro devs hmem
      have hmem' : .look devs ∈ t.todo := by
        rw [htodo]
        exact List.mem_cons_of_mem op hmem
      obtain ⟨-, honly, -⟩ := h.look devs hmem'
      rw [htodo, List.cons.injEq] at honly
      rw [honly.2] at hmem
      cases hmem
    cases hmove with
    | look devs =>
      refine ⟨fun j op' hop' => (by cases hop'), fun devs' hdevs' => ?_⟩
      simp [hrest devs'] at hdevs'
    | idle =>
      exact ⟨fun j op' hop' => (by cases hop'), fun devs hdevs => absurd hdevs (hrest devs)⟩
    | refresh i =>
      refine ⟨fun j op' hop' hsets => ?_, fun devs hdevs => ?_⟩
      · cases hop'
        cases hsets
      · simp [hrest devs] at hdevs
    | give d =>
      refine ⟨fun j op' hop' hsets x hx => ?_, fun devs hdevs => absurd hdevs (hrest devs)⟩
      cases hop'
      simp only [Globals.slot?, List.getElem?_concat_length, Option.some.injEq] at hx
      rw [← hx]
      rfl

theorem InPlace.step {t t' : Thread} {a : ThreadAct} (h : InPlace cfg t) (hC : NoneReturns cfg t a)
    (ht : threadStep cfg t a = some t') : InPlace cfg t' := by
  cases a with
  | start answers =>
    obtain ⟨s, hs, rfl⟩ := Option.map_eq_some_iff.mp ht
    exact ⟨fun i op hop => (by cases hop), fun devs hdevs => (by cases hdevs)⟩
  | rescan devs answers =>
    obtain rfl := threadStep_rescan cfg ht
    refine ⟨fun i op hop => (by cases hop), fun devs' hdevs' => ?_⟩
    cases devs with
    | none => cases hdevs'
    | some devs =>
      cases List.mem_singleton.mp hdevs'
      exact ⟨rfl, rfl, hC⟩
  | step => exact h.next ht

/-- A slot that is absent is not being set up. -/
theorem Since.start {t : Thread} (h : InPlace cfg t) {i : Nat} (habsent : t.tables.Absent i) :
    Since cfg t.tables i t where
  trace := List.prefix_rfl
  listed slot hs _ hpresent := by
    rw [habsent slot hs] at hpresent
    cases hpresent
  work op hop slot hs := by
    have hnot : op.setsUp = false := by
      by_contra hsets
      have hpresent := h.work i op hop (by simpa using hsets) slot hs
      rw [habsent slot hs] at hpresent
      cases hpresent
    cases op with
    | listen k ips made => cases hnot
    | ready => cases hnot
    | establish job => cases job <;> trivial
    | forward job again => cases job <;> trivial
    | verify job again => cases job <;> trivial
    | tcpip job => cases job <;> trivial
    | setDst job => cases job <;> trivial
    | stream job k => cases job <;> trivial
    | giveUp job => cases job <;> trivial

theorem Since.next {t t' : Thread} (hin : InPlace cfg t) {i : Nat} (h : Since cfg u i t)
    (ht : t.next cfg = some t') : Since cfg u i t' := by
  rcases Thread.next_cases cfg ht with ⟨j, op, slot, hwork, hs, rfl⟩ | ⟨op, todo, -, htodo, hmove⟩
  · by_cases hop : op = .ready
    · -- the end of a set-up: what the slot needs is made
      subst hop
      refine ⟨h.trace, fun x' hx' hready hpresent => ?_, fun op' hop' => by cases hop'⟩
      simp only [SlotOp.exec, Globals.slot?, Globals.modifySlot, List.getElem?_modify] at hx'
      obtain ⟨x, hx, rfl⟩ := Option.map_eq_some_iff.mp hx'
      by_cases hij : j = i
      · subst hij
        rw [if_pos rfl]
        exact h.work .ready hwork x hx
      · rw [if_neg hij] at hready hpresent ⊢
        exact h.listed x hx hready hpresent
    · have hkept := SlotOp.exec_kept cfg hop j slot t.tables
      refine ⟨h.trace.trans hkept.trace, fun x' hx' hready hpresent => ?_, fun op' hop' => ?_⟩
      · obtain ⟨x, hx, hsame, hp, hr⟩ := hkept.back hx'
        have hold := h.listed x hx (hr ▸ hready) (hp ▸ hpresent)
        exact List.Subset.trans hsame.needs
          (List.Subset.trans hold (madeSince_mono h.trace hkept.trace))
      · intro slot' hs'
        obtain ⟨op'', hop'', heq⟩ := Option.map_eq_some_iff.mp hop'
        cases heq
        exact (h.work op hwork slot hs).exec h.trace hs hop'' hs'
  · cases hmove with
    | look devs =>
      refine ⟨h.trace, fun x' hx' hready hpresent => ?_, fun op' hop' => by cases hop'⟩
      obtain ⟨-, -, hnone⟩ := hin.look devs (by rw [htodo]; exact List.mem_cons_self)
      simp only [phaseA, Globals.slot?, List.getElem?_map, Option.map_eq_some_iff] at hx'
      obtain ⟨x, hx, rfl⟩ := hx'
      by_cases hp : x.present = true
      · exact h.listed x hx hready hp
      · -- it has just come back: then it needs nothing
        have hempty : x.needs cfg = [] := by
          by_contra hneeds
          refine hnone ⟨x, List.mem_of_getElem? hx, hready, by simpa using hp, ?_, hneeds⟩
          simpa [Slot.look] using hpresent
        rw [show (x.look devs).needs cfg = x.needs cfg from rfl, hempty]
        exact List.nil_subset _
    | idle => exact ⟨h.trace, h.listed, fun op' hop' => by cases hop'⟩
    | refresh j =>
      have hkept := clearReappeared_kept t.tables j
      refine ⟨h.trace, fun x' hx' hready hpresent => ?_, fun op' hop' slot' _ => ?_⟩
      · obtain ⟨x, hx, hsame, hp, hr⟩ := hkept.back hx'
        exact List.Subset.trans hsame.needs (h.listed x hx (hr ▸ hready) (hp ▸ hpresent))
      · cases hop'
        trivial
    | give d =>
      refine ⟨h.trace, fun x' hx' hready hpresent => ?_, fun op' hop' slot' _ => ?_⟩
      · rcases slot?_give cfg hx' with hx | hnew
        · exact h.listed x' hx hready hpresent
        · rw [hnew] at hready
          cases hready
      · cases hop'
        trivial

theorem Since.step {t t' : Thread} {a : ThreadAct} (hin : InPlace cfg t) {i : Nat}
    (h : Since cfg u i t) (ht : threadStep cfg t a = some t') : Since cfg u i t' := by
  cases a with
  | start answers =>
    obtain ⟨s, hs, rfl⟩ := Option.map_eq_some_iff.mp ht
    have hkept := start_kept cfg hs
    refine ⟨h.trace.trans hkept.trace, fun x' hx' hready hpresent => ?_, fun op' hop' => by cases hop'⟩
    obtain ⟨x, hx, hsame, hp, hr⟩ := hkept.back hx'
    have hold := h.listed x hx (hr ▸ hready) (hp ▸ hpresent)
    exact List.Subset.trans hsame.needs
      (List.Subset.trans hold (madeSince_mono h.trace hkept.trace))
  | rescan devs answers =>
    obtain rfl := threadStep_rescan cfg ht
    exact ⟨h.trace, h.listed, fun op hop => by cases hop⟩
  | step => exact h.next hin ht

theorem inPlace_init : InPlace cfg (threadLts cfg).init :=
  ⟨fun i op hop => (by cases hop), fun devs hdevs => (by cases hdevs)⟩

variable (cfg)

/-- **The forwards behind a line are newer than the last absence of its device**, at
every moment of a run in which no slot that needs forwards comes back: they were all
made after any earlier moment `u` at which the slot was absent. -/
theorem listed_forwarded (as : List ThreadAct) {t : Thread}
    (hmeets : (threadLts cfg).Meets (NoneReturns cfg) (threadLts cfg).init as)
    (hrun : (threadLts cfg).run (threadLts cfg).init as = some t) :
    ∀ line ∈ deviceLines t.tables, ∃ i slot, t.tables.slot? i = some slot ∧ slot.line = line ∧
      ∀ before after u, as = before ++ after →
        (threadLts cfg).run (threadLts cfg).init before = some u → u.tables.Absent i →
          slot.needs cfg ⊆ madeSince u.tables t.tables := by
  intro line hline
  simp only [deviceLines, List.mem_map, List.mem_filter, Bool.and_eq_true] at hline
  obtain ⟨slot, ⟨hmem, hpresent, hready⟩, rfl⟩ := hline
  obtain ⟨i, hi⟩ := List.mem_iff_getElem?.mp hmem
  refine ⟨i, slot, hi, rfl, ?_⟩
  rintro before after u rfl hu habsent
  obtain ⟨hbefore, hafter⟩ := hmeets.append
  obtain ⟨v, hv, hrun⟩ := Lts.run_append.mp hrun
  obtain rfl : u = v := Option.some.inj (hu.symm.trans hv)
  have hin : InPlace cfg u := Lts.invariant_on (I := InPlace cfg)
    (fun _ _ _ hi hC hstep => hi.step hC hstep) inPlace_init hbefore hu
  have hsince : InPlace cfg t ∧ Since cfg u.tables i t :=
    Lts.invariant_on (I := fun t => InPlace cfg t ∧ Since cfg u.tables i t)
      (fun _ _ _ hi hC hstep => ⟨hi.1.step hC hstep, hi.2.step hi.1 hstep⟩)
      ⟨hin, .start hin habsent⟩ (hafter u hu) hrun
  exact hsince.2.listed slot hi hready hpresent

theorem listed_forwarded_run : ∃ t,
    (threadLts (.default [])).run ⟨.empty, none, []⟩ (oneDeviceRun [true, true, true, true]) =
      some t ∧ (deviceLines t.tables).length = 1 ∧
      ∀ line ∈ deviceLines t.tables, ∃ i slot, t.tables.slot? i = some slot ∧ slot.line = line ∧
        ∀ before after u, oneDeviceRun [true, true, true, true] = before ++ after →
          (threadLts (.default [])).run (threadLts (.default [])).init before = some u →
            u.tables.Absent i → slot.needs (.default []) ⊆ madeSince u.tables t.tables := by
  refine ⟨_, rfl, by decide, ?_⟩
  exact listed_forwarded (.default []) (oneDeviceRun [true, true, true, true]) (by decide) rfl

/-- The emulator is set up and goes away. -/
def awayRun : List ThreadAct :=
  oneDeviceRun [true, true, true, true] ++ [.rescan (some []) [], .step, .step]

/-- It is back, and adb cannot forward to it any more. -/
def backRun : List ThreadAct :=
  .rescan (some [emulator]) [] :: List.replicate 8 .step

/-- The refresh has failed, and the slot stays in the list with all its ports. -/
theorem listed_unforwarded :
    ¬∀ (cfg : Config) (as : List ThreadAct) (t : Thread),
      (threadLts cfg).run (threadLts cfg).init as = some t →
        ∀ line ∈ deviceLines t.tables, ∃ i slot, t.tables.slot? i = some slot ∧ slot.line = line ∧
          ∀ before after u, as = before ++ after →
            (threadLts cfg).run (threadLts cfg).init before = some u → u.tables.Absent i →
              slot.needs cfg ⊆ madeSince u.tables t.tables := by
  intro h
  have hback : ∃ u ∈ (threadLts (.default [])).run (threadLts (.default [])).init awayRun,
      ∃ t ∈ (threadLts (.default [])).run (threadLts (.default [])).init (awayRun ++ backRun),
        (∀ slot ∈ u.tables.slots, slot.present = false) ∧ deviceLines t.tables ≠ [] ∧
          ∀ slot ∈ t.tables.slots, ¬slot.needs (.default []) ⊆ madeSince u.tables t.tables := by
    decide +kernel
  obtain ⟨u, hu, t, ht, habsent, hlisted, hnot⟩ := hback
  obtain ⟨line, hline⟩ := List.exists_mem_of_ne_nil _ hlisted
  obtain ⟨i, slot, hi, -, hsince⟩ := h _ _ t ht line hline
  refine hnot slot (List.mem_of_getElem? hi) (hsince awayRun backRun u rfl hu fun x hx => ?_)
  exact habsent x (List.mem_of_getElem? hx)

end RigControl.Agent
