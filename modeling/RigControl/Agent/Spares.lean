import RigControl.Agent.Forwards
import RigControl.Agent.Loopback
import RigControl.Agent.Whole
import RigControl.Lib.Decimal

/-!
# The devices a rescan leaves alone

A rescan works on the slots that are new and on those that go from absent to present.
The commands of `verify_guest_adb` name no slot but the address 127.0.0.1:PORT of a
forward, and `adb disconnect` does not ask whether that address was connected before:
when it is the serial of a device that stayed, the device is cut off. Such a rescan is
what `Spares` excludes; under it the commands of a rescan are for serials that are
new or have come back (`rescan_fresh`).
-/

namespace RigControl.Agent

open RigControl.Lib

/-- The address under which `verify_guest_adb` reaches a forward. -/
def guestAddress (locPort : Int) : CString := loopback ++ ':' :: decimal locPort

/-- The serial a command acts on. -/
def AdbCmd.serial : AdbCmd → CString
  | .forward serial _ _ | .tcpip serial _ => serial
  | .connect locPort | .getState locPort | .disconnect locPort => guestAddress locPort

/-- The serial has no slot, or its slot goes from absent to present with the list. -/
def Fresh (s : Globals) (devs : List Dev) (serial : CString) : Prop :=
  ∀ slot ∈ s.slots, slot.serial = serial → slot.present = false ∧ ∃ d ∈ devs, d.serial = serial

instance (s : Globals) (devs : List Dev) (serial : CString) : Decidable (Fresh s devs serial) :=
  inferInstanceAs (Decidable (∀ slot ∈ s.slots, _ → _ ∧ ∃ d ∈ devs, _))

/-- The serials of the slots once phase B2 has gone through the list. -/
def givenSerials (serials : List CString) : List Dev → List CString
  | [] => serials
  | d :: devs =>
    if (serials.any fun serial => serial = d.serial) ∨ maxSlots ≤ serials.length then
      givenSerials serials devs
    else givenSerials (serials ++ [d.serial]) devs

/-- The slot `i` is new, or is ready and has come back. -/
def Worked (s : Globals) (devs : List Dev) (i : Nat) : Prop :=
  ∀ slot, s.slot? i = some slot →
    slot.ready = true ∧ slot.present = false ∧ ∃ d ∈ devs, d.serial = slot.serial

instance (s : Globals) (devs : List Dev) (i : Nat) : Decidable (Worked s devs i) :=
  decidable_of_iff (∀ slot ∈ s.slot? i,
    slot.ready = true ∧ slot.present = false ∧ ∃ d ∈ devs, d.serial = slot.serial) Iff.rfl

variable (cfg : Config)

/-- No device that stays as it is has the address under which the guest of a slot is
verified. -/
def Spares (s : Globals) (devs : List Dev) : Prop :=
  ∀ i < maxSlots, Worked s devs i →
    (∃ serial ∈ (givenSerials s.serials devs)[i]?, devKind serial ≠ .wireless) →
    Fresh s devs (guestAddress (cfg.adbBase + i + locOffset))

instance (s : Globals) (devs : List Dev) : Decidable (Spares cfg s devs) :=
  inferInstanceAs (Decidable (∀ i < maxSlots, Worked s devs i →
    (∃ serial ∈ (givenSerials s.serials devs)[i]?, devKind serial ≠ .wireless) → _))

def SameSerials (devs devs' : List Dev) : Prop :=
  ∀ serial, (∃ d ∈ devs, d.serial = serial) ↔ ∃ d ∈ devs', d.serial = serial

/-! ## The list and the slots -/

theorem givenSerials_cons (serials : List CString) (d : Dev) (devs : List Dev) :
    givenSerials serials (d :: devs) =
      if d.serial ∈ serials ∨ maxSlots ≤ serials.length then givenSerials serials devs
      else givenSerials (serials ++ [d.serial]) devs := by
  rw [givenSerials]
  simp only [List.any_eq_true, decide_eq_true_eq, exists_eq_right]

theorem prefix_givenSerials (serials : List CString) (devs : List Dev) :
    serials <+: givenSerials serials devs := by
  induction devs generalizing serials with
  | nil => exact List.prefix_rfl
  | cons d devs ih =>
    rw [givenSerials_cons]
    split
    · exact ih serials
    · exact (List.prefix_append ..).trans (ih _)

/-- Each device in the list has a slot then, or all are taken. -/
theorem mem_givenSerials (serials : List CString) {devs : List Dev} {d : Dev} (hd : d ∈ devs) :
    d.serial ∈ givenSerials serials devs ∨ maxSlots ≤ (givenSerials serials devs).length := by
  induction devs generalizing serials with
  | nil => cases hd
  | cons e devs ih =>
    rw [givenSerials_cons]
    rcases List.mem_cons.mp hd with rfl | hd
    · split
      · rename_i hold
        have hsub := prefix_givenSerials serials devs
        exact hold.imp (fun h => hsub.subset h) fun h => Nat.le_trans h hsub.length_le
      · refine .inl ((prefix_givenSerials _ devs).subset ?_)
        exact List.mem_append_right _ (List.mem_singleton.mpr rfl)
    · split
      · exact ih serials hd
      · exact ih _ hd

theorem any_serial_iff {s : Globals} {serial : CString} :
    (s.slots.any fun slot => slot.serial = serial) = true ↔ serial ∈ s.serials := by
  simp [Globals.serials]

theorem length_serials (s : Globals) : s.serials.length = s.slots.length := List.length_map ..

variable {cfg} in
theorem serials_give (s : Globals) (d : Dev) (i : Nat) :
    (Globals.serials { s with slots := s.slots ++ [newSlot cfg d i] }) = s.serials ++ [d.serial] := by
  simp [Globals.serials, newSlot_serial]

variable {cfg} in
/-- Phase B2 leaves a device out, which is one that has a slot or for which there is none,
or gives it the next slot. -/
theorem Op.place_cases (s : Globals) (todo : List Op) (d : Dev) :
    (∃ warned, Op.exec cfg s todo (.place d) = ⟨{ s with warned }, none, todo⟩ ∧
      ∀ devs, givenSerials s.serials (d :: devs) = givenSerials s.serials devs) ∨
    (d.serial ∉ s.serials ∧
      Op.exec cfg s todo (.place d) =
        ⟨{ s with slots := s.slots ++ [newSlot cfg d s.slots.length] },
          some (s.slots.length, .establish .setup), todo⟩ ∧
      ∀ devs, givenSerials s.serials (d :: devs) = givenSerials (s.serials ++ [d.serial]) devs) := by
  simp only [givenSerials_cons, Op.exec, length_serials]
  by_cases hold : d.serial ∈ s.serials
  · rw [if_pos (any_serial_iff.mpr hold)]
    exact .inl ⟨s.warned, rfl, fun devs => if_pos (.inl hold)⟩
  rw [if_neg (fun hany => hold (any_serial_iff.mp hany))]
  by_cases hfull : maxSlots ≤ s.slots.length
  · rw [if_pos hfull]
    exact .inl ⟨true, rfl, fun devs => if_pos (.inr hfull)⟩
  · rw [if_neg hfull]
    exact .inr ⟨hold, rfl, fun devs => if_neg (not_or.mpr ⟨hold, hfull⟩)⟩

/-! ## What the work on a slot leaves -/

/-- What the work on slots keeps of each. -/
structure Slot.Steady (x y : Slot) : Prop where
  same : x.Same y
  present : y.present = x.present
  reappeared : y.reappeared = x.reappeared

theorem Slot.Steady.refl (x : Slot) : x.Steady x := ⟨.refl x, rfl, rfl⟩

/-- Every slot is changed on its own, and none is added. -/
structure Steady (s s' : Globals) : Prop where
  length : s'.slots.length = s.slots.length
  slot : ∀ i x', s'.slot? i = some x' → ∃ x, s.slot? i = some x ∧ x.Steady x'

variable {cfg} {s s' : Globals}

theorem Steady.of_slots (h : s'.slots = s.slots) : Steady s s' :=
  ⟨by rw [h], fun i x hx => ⟨x, by rw [Globals.slot?, ← h]; exact hx, .refl x⟩⟩

theorem modifySlot_steady (s : Globals) (i : Nat) {f : Slot → Slot}
    (hf : ∀ x : Slot, x.Steady (f x)) : Steady s (s.modifySlot i f) where
  length := List.length_modify ..
  slot j x' hx' := by
    simp only [Globals.slot?, Globals.modifySlot, List.getElem?_modify] at hx'
    obtain ⟨x, hx, rfl⟩ := Option.map_eq_some_iff.mp hx'
    refine ⟨x, hx, ?_⟩
    split
    · exact hf x
    · exact .refl x

theorem SlotOp.exec_steady (op : SlotOp) (i : Nat) (slot : Slot) (s : Globals) :
    Steady s (op.exec cfg i slot s).1 := by
  have hdst : ∀ host port, Steady s (Agent.setDst i host port s) := fun host port =>
    modifySlot_steady s i fun x => ⟨⟨rfl, rfl, rfl, rfl, .inl rfl⟩, rfl, rfl⟩
  cases op with
  | establish job =>
    simp only [SlotOp.exec]
    split
    · exact .of_slots rfl
    · split
      · exact hdst ..
      · exact .of_slots rfl
  | forward job again => exact .of_slots (adbForward_slots ..)
  | verify job again => exact .of_slots (verifyGuestAdb_slots ..)
  | tcpip job => exact .of_slots rfl
  | setDst job => exact hdst ..
  | stream job k => exact .of_slots (adbForward_slots ..)
  | giveUp job => exact modifySlot_steady s i fun x => ⟨⟨rfl, rfl, rfl, rfl, .inr rfl⟩, rfl, rfl⟩
  | listen k ips made =>
    cases ips with
    | nil => exact .of_slots rfl
    | cons ip ips => exact .of_slots (addListenerOn_slots ..)
  | ready => exact modifySlot_steady s i fun x => ⟨⟨rfl, rfl, rfl, rfl, .inl rfl⟩, rfl, rfl⟩

/-- The same slots have the same serials. -/
theorem Steady.serials (h : Steady s s') : s'.serials = s.serials := by
  apply List.ext_getElem
  · simpa [Globals.serials] using h.length
  · intro i h1 h2
    simp only [Globals.serials, List.length_map] at h1 h2
    obtain ⟨x, hx, hsame⟩ := h.slot i _ (List.getElem?_eq_getElem h1)
    rw [Globals.slot?, List.getElem?_eq_getElem h2] at hx
    cases hx
    simpa [Globals.serials] using hsame.same.serial

/-! ## The commands of the work on a slot -/

/-- The guest is to be reached through a forward. -/
def SlotOp.reaches : SlotOp → Bool
  | .forward .. | .verify .. | .tcpip .. | .setDst .. => true
  | _ => false

theorem afterForwards_reaches {job : Job} {op : SlotOp} (h : afterForwards cfg job = some op) :
    op.reaches = false := by
  cases job with
  | refresh => cases h
  | setup =>
    cases h
    rfl

theorem afterDst_reaches {job : Job} {x : Slot} {op : SlotOp} (h : afterDst cfg job x = some op) :
    op.reaches = false := by
  unfold afterDst at h
  split at h
  · cases h
    rfl
  · exact afterForwards_reaches h

/-- Only for a slot that is not wireless. -/
theorem SlotOp.reaches_exec {op op' : SlotOp} {i : Nat} {slot : Slot}
    (h : op.reaches = true → slot.kind ≠ .wireless) (hop' : (op.exec cfg i slot s).2 = some op')
    (hr : op'.reaches = true) : slot.kind ≠ .wireless := by
  cases op with
  | establish job =>
    simp only [SlotOp.exec] at hop'
    split at hop'
    · rename_i hw
      exact hw
    · split at hop'
      · rw [afterDst_reaches hop'] at hr
        cases hr
      · cases hop'
  | forward | verify | tcpip | setDst => exact h rfl
  | stream job k =>
    simp only [SlotOp.exec] at hop'
    split at hop'
    · cases hop'
      cases hr
    · split at hop'
      · cases hop'
        cases hr
      · rw [afterForwards_reaches hop'] at hr
        cases hr
  | giveUp job =>
    rw [afterForwards_reaches hop'] at hr
    cases hr
  | listen k ips made =>
    cases ips with
    | nil =>
      simp only [SlotOp.exec, afterListen] at hop'
      cases k <;> (repeat' split at hop') <;> cases hop' <;> cases hr
    | cons ip ips =>
      cases hop'
      cases hr
  | ready => cases hop'

/-- It connects to the forward first. -/
theorem verifyGuestAdb_trace (loc : Int) (s : Globals) : ∃ rest,
    (verifyGuestAdb loc s).1.trace = s.trace ++ (.connect loc, (runCmd (.connect loc) s).2) :: rest ∧
      ∀ p ∈ rest, p.1.serial = guestAddress loc := by
  simp only [verifyGuestAdb]
  split
  · rw [runCmd_trace, runCmd_trace, runCmd_trace, List.append_assoc, List.append_assoc]
    refine ⟨[_, _], rfl, fun p hp => ?_⟩
    simp only [List.mem_cons, List.not_mem_nil, or_false] at hp
    rcases hp with rfl | rfl <;> rfl
  · rw [runCmd_trace, runCmd_trace, List.append_assoc]
    refine ⟨[_], rfl, fun p hp => ?_⟩
    obtain rfl := List.mem_singleton.mp hp
    rfl

/-- The commands of a step are for the slot, or for the address its guest is verified
under. -/
theorem SlotOp.exec_trace (op : SlotOp) (i : Nat) (slot : Slot) (s : Globals) : ∃ new,
    (op.exec cfg i slot s).1.trace = s.trace ++ new ∧ ∀ p ∈ new, p.1.serial = slot.serial ∨
      (op.reaches = true ∧ p.1.serial = guestAddress (slot.adbPort + locOffset)) := by
  have hnone : ∀ {s' : Globals}, s'.trace = s.trace → ∃ new, s'.trace = s.trace ++ new ∧
      ∀ p ∈ new, p.1.serial = slot.serial ∨
        (op.reaches = true ∧ p.1.serial = guestAddress (slot.adbPort + locOffset)) :=
    fun h => ⟨[], by rw [h, List.append_nil], by simp⟩
  cases op with
  | establish job =>
    simp only [SlotOp.exec]
    split
    · exact hnone rfl
    · split <;> exact hnone rfl
  | forward job again =>
    refine ⟨_, adbForward_trace .., fun p hp => .inl ?_⟩
    rw [List.mem_singleton.mp hp]
    rfl
  | verify job again =>
    obtain ⟨rest, hnew, hserial⟩ := verifyGuestAdb_trace (slot.adbPort + locOffset) s
    refine ⟨_, hnew, fun p hp => .inr ⟨rfl, ?_⟩⟩
    rcases List.mem_cons.mp hp with rfl | hp
    · rfl
    · exact hserial p hp
  | tcpip job =>
    refine ⟨[(.tcpip slot.serial cfg.tcpipPort, s.answer.2)], rfl, fun p hp => .inl ?_⟩
    rw [List.mem_singleton.mp hp]
    rfl
  | setDst job => exact hnone rfl
  | stream job k =>
    refine ⟨_, adbForward_trace .., fun p hp => .inl ?_⟩
    rw [List.mem_singleton.mp hp]
    rfl
  | giveUp job => exact hnone rfl
  | listen k ips made =>
    cases ips with
    | nil => exact hnone rfl
    | cons ip ips => exact hnone (addListenerOn_recorded (slot.listener i ip k) made s).2
  | ready => exact hnone rfl

/-! ## The steps of a rescan -/

def Op.device? : Op → Option Dev
  | .place d => some d
  | _ => none

variable (cfg) in
/-- The thread is in the rescan that found the tables `u` and the list `devs`, and has
looked at the list. -/
structure Rescanning (u : Globals) (devs : List Dev) (t : Thread) : Prop where
  tabled : Tabled cfg t
  distinct : t.tables.serials.Nodup
  old : u.serials <+: t.tables.serials
  final : givenSerials t.tables.serials (t.todo.filterMap Op.device?) = givenSerials u.serials devs
  devices : ∀ d, .place d ∈ t.todo → d ∈ devs
  looked : ∀ ds, .look ds ∉ t.todo
  present : ∀ i x, t.tables.slot? i = some x → x.present = devs.any fun d => x.serial = d.serial
  flagged : ∀ i x, t.tables.slot? i = some x → x.reappeared = true →
    .refresh ∈ t.todo ∧ Worked u devs i
  work : ∀ i op, t.work = some (i, op) → Worked u devs i ∧
    (op.reaches = true → ∀ x, t.tables.slot? i = some x → x.kind ≠ .wireless)
  trace : ∃ new, t.tables.trace = u.trace ++ new ∧
    (Spares cfg u devs → ∀ p ∈ new, Fresh u devs p.1.serial)

variable {u : Globals} {devs : List Dev} {t t' : Thread}

theorem serials_getElem? {i : Nat} {x : Slot} (h : s.slot? i = some x) :
    s.serials[i]? = some x.serial := by
  unfold Globals.slot? at h
  simp [Globals.serials, h]

theorem getElem?_of_prefix {α : Type} {xs ys : List α} (h : xs <+: ys) {i : Nat} {x : α}
    (hx : xs[i]? = some x) : ys[i]? = some x := by
  obtain ⟨hi, rfl⟩ := List.getElem?_eq_some_iff.mp hx
  exact List.prefix_iff_getElem?.mp h i hi

/-- A slot that is worked on has a serial that is new or has come back. -/
theorem Rescanning.fresh (h : Rescanning cfg u devs t) {i : Nat} {slot : Slot}
    (hi : Worked u devs i) (hs : t.tables.slot? i = some slot) : Fresh u devs slot.serial := by
  intro y hy hserial
  obtain ⟨j, hj⟩ := List.mem_iff_getElem?.mp hy
  have hslot : t.tables.serials[i]? = some slot.serial := serials_getElem? hs
  have hold : t.tables.serials[j]? = some slot.serial := by
    rw [← hserial]
    exact getElem?_of_prefix h.old (serials_getElem? hj)
  obtain ⟨hi', -⟩ := List.getElem?_eq_some_iff.mp hslot
  obtain rfl : i = j := (List.getElem?_inj hi' h.distinct).mp (hslot.trans hold.symm)
  obtain ⟨-, habsent, hback⟩ := hi y hj
  exact ⟨habsent, hserial ▸ hback⟩

/-- The address under which its guest is verified is none of a device that stays. -/
theorem Rescanning.guest (h : Rescanning cfg u devs t) (hspares : Spares cfg u devs) {i : Nat}
    {slot : Slot} (hi : Worked u devs i) (hs : t.tables.slot? i = some slot)
    (hkind : slot.kind ≠ .wireless) : Fresh u devs (guestAddress (slot.adbPort + locOffset)) := by
  have hat := h.tabled.slot i slot hs
  have hlt : i < maxSlots :=
    Nat.lt_of_lt_of_le (List.getElem?_eq_some_iff.mp hs).1 h.tabled.room
  rw [hat.adbPort]
  refine hspares i hlt hi ⟨slot.serial, ?_, hat.kind ▸ hkind⟩
  rw [← h.final]
  exact getElem?_of_prefix (prefix_givenSerials _ _) (serials_getElem? hs)

theorem Rescanning.exec (h : Rescanning cfg u devs t) {i : Nat} {op : SlotOp} {slot : Slot}
    (hwork : t.work = some (i, op)) (hs : t.tables.slot? i = some slot)
    (htabled : Tabled cfg ⟨(op.exec cfg i slot t.tables).1,
      (op.exec cfg i slot t.tables).2.map fun op => (i, op), t.todo⟩) :
    Rescanning cfg u devs ⟨(op.exec cfg i slot t.tables).1,
      (op.exec cfg i slot t.tables).2.map fun op => (i, op), t.todo⟩ := by
  obtain ⟨hi, hreaches⟩ := h.work i op hwork
  have hsteady : Steady t.tables (op.exec cfg i slot t.tables).1 :=
    op.exec_steady i slot t.tables
  have hserials := hsteady.serials
  refine ⟨htabled, hserials ▸ h.distinct, hserials ▸ h.old, hserials ▸ h.final, h.devices,
    h.looked, fun j x' hx' => ?_, fun j x' hx' hback => ?_, fun j op' hop' => ?_, ?_⟩
  · obtain ⟨x, hx, hsame⟩ := hsteady.slot j x' hx'
    rw [hsame.present, hsame.same.serial]
    exact h.present j x hx
  · obtain ⟨x, hx, hsame⟩ := hsteady.slot j x' hx'
    exact h.flagged j x hx (hsame.reappeared ▸ hback)
  · obtain ⟨op'', hop'', heq⟩ := Option.map_eq_some_iff.mp hop'
    cases heq
    refine ⟨hi, fun hr x' hx' => ?_⟩
    obtain ⟨x, hx, hsame⟩ := hsteady.slot i x' hx'
    obtain rfl : slot = x := Option.some.inj (hs.symm.trans hx)
    rw [hsame.same.kind]
    exact SlotOp.reaches_exec (fun h => hreaches h slot hs) hop'' hr
  · obtain ⟨old, hold, hfresh⟩ := h.trace
    obtain ⟨new, hnew, hserial⟩ := op.exec_trace i slot t.tables
    refine ⟨old ++ new, by rw [hnew, hold, List.append_assoc], fun hspares p hp => ?_⟩
    rcases List.mem_append.mp hp with hp | hp
    · exact hfresh hspares p hp
    · rcases hserial p hp with heq | ⟨hr, heq⟩
      · rw [heq]
        exact h.fresh hi hs
      · rw [heq]
        exact h.guest hspares hi hs (hreaches hr slot hs)

/-- The head of the loop of phase B1. -/
theorem Rescanning.refresh (h : Rescanning cfg u devs t) {todo : List Op}
    (htodo : t.todo = .refresh :: todo)
    (htabled : Tabled cfg (Op.exec cfg t.tables todo .refresh)) :
    Rescanning cfg u devs (Op.exec cfg t.tables todo .refresh) := by
  have hfinal := h.final
  have hdevices := h.devices
  have hlooked := h.looked
  rw [htodo] at hfinal hdevices hlooked
  simp only [Op.exec] at htabled ⊢
  split at htabled
  · rename_i hnone
    refine ⟨htabled, h.distinct, h.old, hfinal, fun d hd => hdevices d (List.mem_cons_of_mem _ hd),
      fun ds hds => hlooked ds (List.mem_cons_of_mem _ hds), h.present, fun i x hx hback => ?_,
      fun i op hop => (by cases hop), h.trace⟩
    have hoff := List.findIdx?_eq_none_iff.mp hnone x (List.mem_of_getElem? hx)
    rw [hback] at hoff
    cases hoff
  · rename_i i hi
    obtain ⟨hlt, hback, -⟩ := List.findIdx?_eq_some_iff_getElem.mp hi
    have hworked := (h.flagged i _ (List.getElem?_eq_getElem hlt) hback).2
    have hserials := @serials_eq_of_same t.tables (fun slot => { slot with reappeared := false }) i
      fun x => ⟨rfl, rfl, rfl, rfl, .inl rfl⟩
    have hslot : ∀ j x', (t.tables.modifySlot i fun slot => { slot with reappeared := false }).slot? j =
        some x' → ∃ x, t.tables.slot? j = some x ∧ x'.serial = x.serial ∧ x'.present = x.present ∧
          (x'.reappeared = true → x.reappeared = true) := by
      intro j x' hx'
      simp only [Globals.slot?, Globals.modifySlot, List.getElem?_modify] at hx'
      obtain ⟨x, hx, rfl⟩ := Option.map_eq_some_iff.mp hx'
      refine ⟨x, hx, ?_⟩
      split
      · exact ⟨rfl, rfl, fun hr => by cases hr⟩
      · exact ⟨rfl, rfl, id⟩
    refine ⟨htabled, hserials ▸ h.distinct, hserials ▸ h.old, hserials ▸ hfinal, hdevices, hlooked,
      fun j x' hx' => ?_, fun j x' hx' hr => ?_, fun j op hop => ?_, h.trace⟩
    · obtain ⟨x, hx, hserial, hpresent, -⟩ := hslot j x' hx'
      rw [hpresent, hserial]
      exact h.present j x hx
    · obtain ⟨x, hx, -, -, himp⟩ := hslot j x' hx'
      exact ⟨List.mem_cons_self, (h.flagged j x hx (himp hr)).2⟩
    · cases hop
      exact ⟨hworked, fun hr => by cases hr⟩

/-- Phase B2 for one device. -/
theorem Rescanning.place (h : Rescanning cfg u devs t) {todo : List Op} {d : Dev}
    (htodo : t.todo = .place d :: todo)
    (htabled : Tabled cfg (Op.exec cfg t.tables todo (.place d))) :
    Rescanning cfg u devs (Op.exec cfg t.tables todo (.place d)) := by
  have hfinal := h.final
  have hdevices := h.devices
  have hlooked := h.looked
  have hflagged := h.flagged
  rw [htodo] at hfinal hdevices hlooked hflagged
  have hplaces : (Op.place d :: todo).filterMap Op.device? = d :: todo.filterMap Op.device? := rfl
  rw [hplaces] at hfinal
  have hdevices' : ∀ e, .place e ∈ todo → e ∈ devs := fun e he =>
    hdevices e (List.mem_cons_of_mem _ he)
  have hlooked' : ∀ ds, .look ds ∉ todo := fun ds hds => hlooked ds (List.mem_cons_of_mem _ hds)
  have hflagged' : ∀ i x, t.tables.slot? i = some x → x.reappeared = true →
      .refresh ∈ todo ∧ Worked u devs i := fun i x hx hback =>
    ⟨(List.mem_cons.mp (hflagged i x hx hback).1).resolve_left (by simp), (hflagged i x hx hback).2⟩
  rcases Op.place_cases t.tables todo d with ⟨warned, heq, hgiven⟩ | ⟨hnew, heq, hgiven⟩
  · rw [heq] at htabled ⊢
    rw [hgiven] at hfinal
    exact ⟨htabled, h.distinct, h.old, hfinal, hdevices', hlooked', h.present, hflagged',
      fun i op hop => (by cases hop), h.trace⟩
  · rw [heq] at htabled ⊢
    rw [hgiven] at hfinal
    have hserials := @serials_give cfg t.tables d t.tables.slots.length
    refine ⟨htabled, ?_, ?_, ?_, hdevices', hlooked', fun i x hx => ?_, fun i x hx hback => ?_,
      fun i op hop => ?_, h.trace⟩
    · rw [hserials, List.nodup_append]
      refine ⟨h.distinct, by simp, fun x hx y hy => ?_⟩
      obtain rfl := List.mem_singleton.mp hy
      exact fun heq => hnew (heq ▸ hx)
    · rw [hserials]
      exact h.old.trans (List.prefix_append ..)
    · rw [hserials]
      exact hfinal
    · rcases slot?_give cfg hx with hx | rfl
      · exact h.present i x hx
      · rw [newSlot_serial]
        exact (List.any_eq_true.mpr ⟨d, hdevices d List.mem_cons_self, by simp⟩).symm
    · rcases slot?_give cfg hx with hx | rfl
      · exact hflagged' i x hx hback
      · cases hback
    · cases hop
      refine ⟨fun x hx => ?_, fun hr => by cases hr⟩
      -- the index is new
      have hlt := (List.getElem?_eq_some_iff.mp hx).1
      have hle := h.old.length_le
      rw [length_serials, length_serials] at hle
      omega

theorem Rescanning.next (h : Rescanning cfg u devs t) (ht : t.next cfg = some t') :
    Rescanning cfg u devs t' := by
  have htabled := h.tabled.next ht
  unfold Thread.next at ht
  split at ht
  · rename_i i op hwork
    split at ht
    · rename_i slot hs
      cases ht
      exact h.exec hwork hs htabled
    · cases ht
  · split at ht
    · cases ht
    · rename_i op todo htodo
      cases ht
      cases op with
      | look ds => exact absurd (htodo ▸ List.mem_cons_self) (h.looked ds)
      | refresh => exact h.refresh htodo htabled
      | place d => exact h.place htodo htabled

/-! ## Whole rescans -/

variable (cfg) in
/-- What holds between two rescans. -/
structure Between (s : Globals) : Prop where
  tabled : Tabled cfg ⟨s, none, []⟩
  distinct : s.serials.Nodup
  quiet : ∀ x ∈ s.slots, x.reappeared = false

/-- What a successful rescan leaves behind. -/
structure Settled (s : Globals) (devs : List Dev) : Prop where
  present : ∀ x ∈ s.slots, x.present = devs.any fun d => x.serial = d.serial
  given : ∀ d ∈ devs, d.serial ∈ s.serials ∨ maxSlots ≤ s.slots.length

theorem Tabled.of_tables (h : Tabled cfg ⟨s, none, []⟩) (hslots : s'.slots = s.slots)
    (hfwds : s'.fwds = s.fwds) (htrace : s'.trace = s.trace) : Tabled cfg ⟨s', none, []⟩ := by
  refine h.of_same ⟨fun i x hx => ⟨x, ?_, .refl x⟩, fun i x hx => .inl ⟨x, ?_, .refl x⟩, ?_⟩ hfwds ?_
    fun i op hop => by cases hop
  · rw [Globals.slot?, hslots]
    exact hx
  · rw [Globals.slot?, ← hslots]
    exact hx
  · exact fun hroom => hslots ▸ hroom
  · simp only [Globals.forwards, htrace]

theorem Between.of_tables (h : Between cfg s) (hslots : s'.slots = s.slots)
    (hfwds : s'.fwds = s.fwds) (htrace : s'.trace = s.trace) : Between cfg s' := by
  refine ⟨h.tabled.of_tables hslots hfwds htrace, ?_, hslots ▸ h.quiet⟩
  rw [Globals.serials, hslots]
  exact h.distinct

/-- Phase A marks the slots that have come back, and only those. -/
theorem Between.look (h : Between cfg u) (devs : List Dev) :
    Rescanning cfg u devs (Op.exec cfg u [] (.look devs)) := by
  have hlook : ∀ i x', (phaseA devs u).slot? i = some x' →
      ∃ x, u.slot? i = some x ∧ x' = x.look devs := by
    intro i x' hx'
    simp only [Globals.slot?, phaseA, List.getElem?_map] at hx'
    obtain ⟨x, hx, rfl⟩ := Option.map_eq_some_iff.mp hx'
    exact ⟨x, hx, rfl⟩
  have hserials : (phaseA devs u).serials = u.serials := serials_phaseA devs
  have hplaces : (Op.refresh :: devs.map Op.place ++ []).filterMap Op.device? = devs := by
    rw [List.append_nil]
    exact (List.filterMap_map ..).trans List.filterMap_some
  refine ⟨?_, hserials ▸ h.distinct, ?_, ?_, fun d hd => ?_, fun ds hds => ?_, fun i x' hx' => ?_,
    fun i x' hx' hback => ?_, fun i op hop => (by cases hop), ⟨[], (List.append_nil _).symm, by simp⟩⟩
  · have hlooking : Tabled cfg ⟨u, none, [.look devs]⟩ :=
      ⟨h.tabled.room, h.tabled.slot, h.tabled.recorded, h.tabled.ports, fun i op hop => by cases hop⟩
    exact hlooking.next rfl
  · exact hserials ▸ List.prefix_rfl
  · simp only [Op.exec, hplaces, hserials]
  · simpa [Op.exec] using hd
  · simp [Op.exec] at hds
  · obtain ⟨x, -, rfl⟩ := hlook i x' hx'
    rfl
  · obtain ⟨x, hx, rfl⟩ := hlook i x' hx'
    refine ⟨List.mem_cons_self, fun y hy => ?_⟩
    obtain rfl : x = y := Option.some.inj (hx.symm.trans hy)
    have hoff := h.quiet x (List.mem_of_getElem? hx)
    simp only [Slot.look, hoff, Bool.or_false, Bool.and_eq_true, Bool.not_eq_true',
      List.any_eq_true, decide_eq_true_eq] at hback
    obtain ⟨⟨⟨d, hd, hserial⟩, habsent⟩, hready⟩ := hback
    exact ⟨hready, habsent, d, hd, hserial.symm⟩

/-- The rescan, at its end. -/
theorem Between.rescanned (h : Between cfg u) (devs : List Dev) :
    Rescanning cfg u (devs.take 64) ⟨rescanOnce cfg (some devs) u, none, []⟩ := by
  have hgoes : Goes cfg ⟨u, none, [.look (devs.take 64)]⟩ ⟨rescanOnce cfg (some devs) u, none, []⟩ :=
    rescan_whole (some devs) u
  have hend := hgoes.keeps (I := fun t => t = ⟨u, none, [.look (devs.take 64)]⟩ ∨
    Rescanning cfg u (devs.take 64) t) (fun t t' ht hnext => ?_) (.inl rfl)
  · exact hend.resolve_left fun heq => by cases congrArg Thread.todo heq
  · rcases ht with rfl | ht
    · cases hnext
      exact .inr (h.look (devs.take 64))
    · exact .inr (ht.next hnext)

theorem Rescanning.between (h : Rescanning cfg u devs ⟨s, none, []⟩) : Between cfg s := by
  refine ⟨h.tabled, h.distinct, fun x hx => ?_⟩
  obtain ⟨i, hi⟩ := List.mem_iff_getElem?.mp hx
  cases hback : x.reappeared with
  | false => rfl
  | true => exact absurd (h.flagged i x hi hback).1 List.not_mem_nil

theorem Rescanning.settled (h : Rescanning cfg u devs ⟨s, none, []⟩) : Settled s devs := by
  refine ⟨fun x hx => ?_, fun d hd => ?_⟩
  · obtain ⟨i, hi⟩ := List.mem_iff_getElem?.mp hx
    exact h.present i x hi
  · have hfinal : s.serials = givenSerials u.serials devs := h.final
    rw [← length_serials, hfinal]
    exact mem_givenSerials u.serials hd

theorem Between.step (h : Between cfg s) {a : AgentAct} (hstep : agentStep cfg s a = some s') :
    Between cfg s' := by
  cases a with
  | start answers =>
    obtain ⟨hfwds, htrace⟩ := start_recorded hstep
    exact h.of_tables (start_slots cfg hstep) hfwds htrace
  | rescan devs answers =>
    obtain rfl := agentStep_rescan cfg hstep
    have hready : Between cfg { s with answers := answers } := h.of_tables rfl rfl rfl
    cases devs with
    | none => exact hready
    | some devs => exact (hready.rescanned devs).between

theorem between_init : Between cfg (agentLts cfg).init :=
  ⟨tabled_init, List.nodup_nil, fun x hx => by cases hx⟩

/-- **A rescan that finds the serials of the last one does nothing.** -/
theorem Settled.rescan (h : Settled s devs) (hbetween : Between cfg s) {devs' : List Dev}
    (hsame : SameSerials devs (devs'.take 64)) :
    (rescanOnce cfg (some devs') s).slots = s.slots ∧
      (rescanOnce cfg (some devs') s).trace = s.trace ∧
      (rescanOnce cfg (some devs') s).listeners = s.listeners := by
  have hseen : ∀ serial, (devs'.take 64).any (fun d => serial = d.serial) =
      devs.any fun d => serial = d.serial := by
    intro serial
    have hmem : ∀ ds : List Dev, (ds.any fun d => serial = d.serial) = true ↔
        ∃ d ∈ ds, d.serial = serial := by
      intro ds
      simp only [List.any_eq_true, decide_eq_true_eq, @eq_comm _ serial]
    rw [Bool.eq_iff_iff, hmem, hmem]
    exact (hsame serial).symm
  have hlook : ∀ x ∈ s.slots, x.look (devs'.take 64) = x := by
    intro x hx
    have hpresent : ((devs'.take 64).any fun d => x.serial = d.serial) = x.present :=
      (hseen x.serial).trans (h.present x hx).symm
    have hback : (x.present && !x.present && x.ready || x.reappeared) = x.reappeared := by simp
    rw [Slot.look, hpresent, hback]
  have hphaseA : phaseA (devs'.take 64) s = s := by
    rw [phaseA, List.map_congr_left hlook, List.map_id']
  have hrefresh : refreshLoop cfg s.slots.length s = s := by
    have hnone : s.slots.findIdx? (·.reappeared) = none :=
      List.findIdx?_eq_none_iff.mpr hbetween.quiet
    cases s.slots.length with
    | zero => rfl
    | succ n => rw [refreshLoop, hnone]
  have hplaces : ∀ ds : List Dev, (∀ d ∈ ds, d ∈ devs'.take 64) → ∀ s1 : Globals,
      s1.slots = s.slots → s1.trace = s.trace → s1.listeners = s.listeners →
      (ds.foldl (phaseB2 cfg) s1).slots = s.slots ∧ (ds.foldl (phaseB2 cfg) s1).trace = s.trace ∧
        (ds.foldl (phaseB2 cfg) s1).listeners = s.listeners := by
    intro ds
    induction ds with
    | nil => exact fun _ s1 hslots htrace hlisteners => ⟨hslots, htrace, hlisteners⟩
    | cons d ds ih =>
      intro hds s1 hslots htrace hlisteners
      have hds' := fun e he => hds e (List.mem_cons_of_mem d he)
      rw [List.foldl_cons]
      obtain ⟨e, he, hserial⟩ := (hsame d.serial).mpr ⟨d, hds d List.mem_cons_self, rfl⟩
      unfold phaseB2
      rcases h.given e he with hold | hfull
      · have hany : (s1.slots.any fun slot => slot.serial = d.serial) = true := by
          rw [hslots, ← hserial]
          exact any_serial_iff.mpr hold
        rw [if_pos hany]
        exact ih hds' s1 hslots htrace hlisteners
      · split
        · exact ih hds' s1 hslots htrace hlisteners
        · rw [if_pos (hslots ▸ hfull)]
          exact ih hds' _ hslots htrace hlisteners
  have hrescan : rescanOnce cfg (some devs') s = (devs'.take 64).foldl (phaseB2 cfg) s := by
    simp only [rescanOnce, hphaseA, hrefresh]
  rw [hrescan]
  exact hplaces _ (fun _ hd => hd) s rfl rfl rfl

/-- The last rescan of the run that had an answer had this one. -/
def LastList (as : List AgentAct) (devs : List Dev) : Prop :=
  ∃ before answers failed, as = before ++ .rescan (some devs) answers :: failed ∧
    ∀ a ∈ failed, ∃ answers, a = .rescan none answers

theorem Settled.of_slots (h : Settled s devs) (hslots : s'.slots = s.slots) : Settled s' devs := by
  refine ⟨hslots ▸ h.present, fun d hd => ?_⟩
  rw [Globals.serials, hslots]
  exact h.given d hd

/-- Rescans that fail leave the slots as they are. -/
theorem Settled.failed (h : Settled s devs) {failed : List AgentAct}
    (hfailed : ∀ a ∈ failed, ∃ answers, a = .rescan none answers)
    (hrun : (agentLts cfg).run s failed = some s') : Settled s' devs := by
  induction failed generalizing s with
  | nil =>
    obtain rfl : s = s' := by simpa [Lts.run] using hrun
    exact h
  | cons a failed ih =>
    obtain ⟨v, hv, hrun⟩ := Lts.run_cons.mp hrun
    obtain ⟨answers, rfl⟩ := hfailed a List.mem_cons_self
    obtain rfl := agentStep_rescan cfg hv
    have hsettled : Settled (rescanOnce cfg none { s with answers := answers }) devs :=
      h.of_slots rfl
    exact ih hsettled (fun b hb => hfailed b (List.mem_cons_of_mem _ hb)) hrun

theorem between_run {as : List AgentAct} (hrun : (agentLts cfg).run (agentLts cfg).init as = some s) :
    Between cfg s :=
  Lts.invariant (I := Between cfg) (fun _ _ _ hi hstep => hi.step hstep) between_init hrun

theorem LastList.settled {as : List AgentAct} (h : LastList as devs)
    (hrun : (agentLts cfg).run (agentLts cfg).init as = some s) : Settled s (devs.take 64) := by
  obtain ⟨before, answers, failed, rfl, hfailed⟩ := h
  obtain ⟨v, hv, hrun⟩ := Lts.run_append.mp hrun
  obtain ⟨w, hw, hrun⟩ := Lts.run_cons.mp hrun
  obtain rfl := agentStep_rescan cfg hw
  have hbetween : Between cfg { v with answers := answers } :=
    (between_run hv).of_tables rfl rfl rfl
  exact (hbetween.rescanned devs).settled.failed hfailed hrun

/-- When no device that stays has the address under which a guest is verified, the
commands of a rescan are for serials that are new or have come back. -/
theorem rescan_fresh {as : List AgentAct} {answers : List Bool}
    (hrun : (agentLts cfg).run (agentLts cfg).init as = some s)
    (hstep : agentStep cfg s (.rescan (some devs) answers) = some s')
    (hspares : Spares cfg s (devs.take 64)) :
    ∃ new, s'.trace = s.trace ++ new ∧ ∀ p ∈ new, Fresh s (devs.take 64) p.1.serial := by
  have hbetween : Between cfg { s with answers := answers } :=
    (between_run hrun).of_tables rfl rfl rfl
  obtain rfl := agentStep_rescan cfg hstep
  obtain ⟨new, hnew, hfresh⟩ := (hbetween.rescanned devs).trace
  exact ⟨new, hnew, hfresh hspares⟩

/-- Listeners are only added, a failed `adb devices` changes nothing, and a list with the
serials of the last one runs no command and leaves the slots as they are. -/
theorem rescan_quiet {as : List AgentAct} {listed : Option (List Dev)} {answers : List Bool}
    (hrun : (agentLts cfg).run (agentLts cfg).init as = some s)
    (hstep : agentStep cfg s (.rescan listed answers) = some s') :
    s.listeners <+: s'.listeners ∧ (listed = none → s' = { s with answers := answers }) ∧
      ∀ last ds, LastList as last → listed = some ds → SameSerials (last.take 64) (ds.take 64) →
        s'.slots = s.slots ∧ s'.trace = s.trace ∧ s'.listeners = s.listeners := by
  have hbetween : Between cfg { s with answers := answers } :=
    (between_run hrun).of_tables rfl rfl rfl
  have hextends := ((inv_reachable ⟨as, hrun⟩).step hstep).2
  obtain rfl := agentStep_rescan cfg hstep
  refine ⟨hextends.listeners, fun hnone => (by subst hnone; rfl), fun last ds hlast hds hsame => ?_⟩
  subst hds
  have hsettled : Settled { s with answers := answers } (last.take 64) :=
    (hlast.settled hrun).of_slots rfl
  exact hsettled.rescan hbetween hsame

end RigControl.Agent
