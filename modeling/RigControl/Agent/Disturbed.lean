import RigControl.Agent.Spares

/-!
# The devices a rescan can disturb

The other half of `rescan_fresh`. Where `Spares` fails, a device that stays has the
address under which the guest of some slot is verified, and the rescan works on that slot
(`Due`). It takes no more than so many answers (`Takes`), so with commands that succeed it
reaches the forward of the slot, and then connects to the address. So `Spares` says
exactly when a rescan leaves the devices that stay alone (`rescan_spares_iff`).
-/

namespace RigControl.Agent

open RigControl.Lib

variable {cfg : Config} {s s' s'' : Globals} {m n : Nat}

/-! ## How many answers a rescan takes -/

/-- At most `n` answers are taken. -/
def Takes (n : Nat) (s s' : Globals) : Prop := ∃ k ≤ n, s'.answers = s.answers.drop k

theorem Takes.of_eq (h : s'.answers = s.answers) : Takes n s s' := ⟨0, Nat.zero_le n, h⟩

theorem Takes.one (h : s'.answers = s.answers.tail) : Takes 1 s s' :=
  ⟨1, Nat.le_refl 1, h.trans List.drop_one.symm⟩

theorem Takes.mono (h : Takes m s s') (hle : m ≤ n) : Takes n s s' := by
  obtain ⟨k, hk, hdrop⟩ := h
  exact ⟨k, Nat.le_trans hk hle, hdrop⟩

theorem Takes.trans (h : Takes m s s') (h' : Takes n s' s'') : Takes (m + n) s s'' := by
  obtain ⟨j, hj, hdrop⟩ := h
  obtain ⟨k, hk, hdrop'⟩ := h'
  refine ⟨j + k, Nat.add_le_add hj hk, ?_⟩
  rw [hdrop', hdrop, List.drop_drop]

theorem Takes.suffix (h : Takes n s s') : s'.answers <:+ s.answers := by
  obtain ⟨k, -, hdrop⟩ := h
  exact hdrop ▸ List.drop_suffix k s.answers

/-- With more answers than that, some are left. -/
theorem Takes.left (h : Takes n s s') (hn : n < s.answers.length) : s'.answers ≠ [] := by
  obtain ⟨k, hk, hdrop⟩ := h
  rw [hdrop, ne_eq, List.drop_eq_nil_iff]
  omega

theorem runCmd_takes (c : AdbCmd) (s : Globals) : Takes 1 s (runCmd c s).1 := .one rfl

theorem adbForward_takes (serial : CString) (loc dev : Int) (s : Globals) :
    Takes 1 s (adbForward serial loc dev s).1 := by
  refine .one ?_
  simp only [adbForward]
  split
  · rfl
  · split
    · rfl
    · split <;> rfl

theorem verifyGuestAdb_takes (loc : Int) (s : Globals) : Takes 3 s (verifyGuestAdb loc s).1 := by
  have hconnect := runCmd_takes (.connect loc) s
  simp only [verifyGuestAdb]
  split
  · exact (hconnect.trans (runCmd_takes (.getState loc) _)).trans (runCmd_takes (.disconnect loc) _)
  · exact (hconnect.trans (runCmd_takes (.disconnect loc) _)).mono (by decide)

theorem addListenerOn_takes (l : Listener) (made : Nat) (s : Globals) :
    Takes 1 s (addListenerOn l made s).1 := by
  refine .one ?_
  simp only [addListenerOn]
  split
  · rfl
  · split <;> rfl

theorem forwardAndVerify_takes (serial : CString) (loc : Int) (s : Globals) :
    Takes 4 s (forwardAndVerify cfg serial loc s).1 := by
  have hforward := adbForward_takes serial loc cfg.tcpipPort s
  simp only [forwardAndVerify]
  split
  · exact hforward.trans (verifyGuestAdb_takes loc _)
  · exact hforward.mono (by decide)

theorem reachGuest_takes (serial : CString) (loc : Int) (s : Globals) :
    Takes 9 s (reachGuest cfg serial loc s).1 := by
  have hfirst : Takes 4 s (forwardAndVerify cfg serial loc s).1 := forwardAndVerify_takes ..
  simp only [reachGuest]
  split
  · exact hfirst.mono (by decide)
  · exact (hfirst.trans (runCmd_takes _ _)).trans (forwardAndVerify_takes serial loc _)

theorem streamForwards_takes (i : Nat) (slot : Slot) (ks : List Nat) (s : Globals) :
    Takes ks.length s (streamForwards i slot ks s) := by
  induction ks generalizing s with
  | nil => exact .of_eq rfl
  | cons k ks ih =>
    have hone := adbForward_takes slot.serial (slot.streamBase + k + locOffset) (streamBase + k) s
    simp only [streamForwards]
    split
    · exact (hone.trans (ih _)).mono (by simp [Nat.add_comm])
    · exact (hone.trans (.of_eq rfl : Takes 0 _ _)).mono (by simp)

theorem establishAdb_takes (i : Nat) (slot : Slot) (s : Globals) :
    Takes 9 s (establishAdb cfg i slot s).1 := by
  have hreach : Takes 9 s (reachGuest cfg slot.serial (slot.adbPort + locOffset) s).1 :=
    reachGuest_takes ..
  simp only [establishAdb]
  split
  · split
    · exact hreach.trans (.of_eq rfl : Takes 0 _ _)
    · exact hreach
  · split <;> exact .of_eq rfl

theorem establishForwards_takes (i : Nat) (s : Globals) :
    Takes 13 s (establishForwards cfg i s).1 := by
  simp only [establishForwards]
  split
  · exact .of_eq rfl
  · rename_i slot _
    have hadb : Takes 9 s (establishAdb cfg i slot s).1 := establishAdb_takes ..
    split
    · exact hadb.mono (by decide)
    · split
      · exact hadb.trans (streamForwards_takes i slot (List.range streamCount) _)
      · exact hadb.mono (by decide)

theorem addListener_takes (pubPort : Int) (dstHost : CString) (dstPort : Int)
    (group : Option (Nat × Nat)) (isDiscovery : Bool) (s : Globals) :
    Takes cfg.bindIps.length s
      (addListener cfg pubPort dstHost dstPort group isDiscovery s).1 := by
  have hfold : ∀ (ips : List CString) (p : Globals × Nat),
      Takes ips.length p.1 (ips.foldl (fun (p : Globals × Nat) ip =>
        addListenerOn ⟨ip, pubPort, dstHost, dstPort, group, isDiscovery⟩ p.2 p.1) p).1 := by
    intro ips
    induction ips with
    | nil => exact fun _ => .of_eq rfl
    | cons ip ips ih =>
      intro p
      exact ((addListenerOn_takes _ p.2 p.1).trans (ih _)).mono (by simp [Nat.add_comm])
  exact hfold cfg.bindIps (s, 0)

theorem streamListeners_takes (i : Nat) (slot : Slot) (s : Globals) :
    Takes (streamCount * cfg.bindIps.length) s (streamListeners cfg i slot s) := by
  have hfold : ∀ (ks : List Nat) (s : Globals),
      Takes (ks.length * cfg.bindIps.length) s (ks.foldl (fun s (k : Nat) =>
        (addListener cfg (slot.streamBase + k) loopback (slot.streamBase + k + locOffset)
          (some (i, k)) false s).1) s) := by
    intro ks
    induction ks with
    | nil => exact fun _ => .of_eq rfl
    | cons k ks ih =>
      intro s
      have hone : Takes cfg.bindIps.length s (addListener cfg (slot.streamBase + k) loopback
        (slot.streamBase + k + locOffset) (some (i, k)) false s).1 := addListener_takes ..
      refine (hone.trans (ih _)).mono ?_
      rw [List.length_cons, Nat.succ_mul, Nat.add_comm]
  exact hfold (List.range streamCount) s

theorem bindListeners_takes (i : Nat) (s : Globals) :
    Takes ((streamCount + 1) * cfg.bindIps.length) s (bindListeners cfg i s).1 := by
  simp only [bindListeners]
  split
  · exact .of_eq rfl
  · rename_i slot _
    have hadb : Takes cfg.bindIps.length s (addListener cfg slot.adbPort slot.adbDstHost
      slot.adbDstPort none false s).1 := addListener_takes ..
    have hle : cfg.bindIps.length ≤ (streamCount + 1) * cfg.bindIps.length :=
      Nat.le_mul_of_pos_left _ (Nat.succ_pos streamCount)
    split
    · exact hadb.mono hle
    · split
      · refine (hadb.trans (streamListeners_takes i slot _)).mono ?_
        rw [Nat.succ_mul, Nat.add_comm]
      · exact hadb.mono hle

/-- What the set-up of a slot takes at most. -/
def setupAnswers (cfg : Config) : Nat := 13 + (streamCount + 1) * cfg.bindIps.length

theorem slotSetupNew_takes (i : Nat) (s : Globals) :
    Takes (setupAnswers cfg) s (slotSetupNew cfg i s) := by
  have hforwards : Takes 13 s (establishForwards cfg i s).1 := establishForwards_takes ..
  simp only [slotSetupNew]
  split
  · exact hforwards.mono (Nat.le_add_right ..)
  · have hbind := hforwards.trans (@bindListeners_takes cfg i _)
    split
    · exact hbind
    · exact hbind.trans (.of_eq rfl : Takes 0 _ _)

theorem refreshLoop_takes (fuel : Nat) (s : Globals) :
    Takes (fuel * 13) s (refreshLoop cfg fuel s) := by
  induction fuel generalizing s with
  | zero => exact .of_eq rfl
  | succ fuel ih =>
    unfold refreshLoop
    split
    · exact .of_eq rfl
    · rename_i i _
      have hone : Takes 13 s (establishForwards cfg i
          (s.modifySlot i fun slot => { slot with reappeared := false })).1 :=
        establishForwards_takes ..
      refine (hone.trans (ih _)).mono ?_
      rw [Nat.succ_mul, Nat.add_comm]

theorem phaseB2_takes (d : Dev) (s : Globals) : Takes (setupAnswers cfg) s (phaseB2 cfg s d) := by
  unfold phaseB2
  split
  · exact .of_eq rfl
  · split
    · exact .of_eq rfl
    · exact slotSetupNew_takes ..

theorem rescanOnce_takes (devs : List Dev) (s : Globals) :
    Takes (s.slots.length * 13 + (devs.take 64).length * setupAnswers cfg) s
      (rescanOnce cfg (some devs) s) := by
  have hfold : ∀ (ds : List Dev) (s : Globals),
      Takes (ds.length * setupAnswers cfg) s (ds.foldl (phaseB2 cfg) s) := by
    intro ds
    induction ds with
    | nil => exact fun _ => .of_eq rfl
    | cons d ds ih =>
      intro s
      refine ((phaseB2_takes d s).trans (ih _)).mono ?_
      rw [List.length_cons, Nat.succ_mul, Nat.add_comm]
  have hrefresh : Takes (s.slots.length * 13) s
      (refreshLoop cfg (phaseA (devs.take 64) s).slots.length (phaseA (devs.take 64) s)) := by
    have hlen : (phaseA (devs.take 64) s).slots.length = s.slots.length := List.length_map ..
    rw [hlen]
    exact refreshLoop_takes ..
  exact hrefresh.trans (hfold _ _)

theorem SlotOp.exec_takes (op : SlotOp) (i : Nat) (slot : Slot) (s : Globals) :
    Takes 3 s (op.exec cfg i slot s).1 := by
  cases op with
  | establish job =>
    simp only [SlotOp.exec]
    split
    · exact .of_eq rfl
    · split <;> exact .of_eq rfl
  | forward job again => exact (adbForward_takes ..).mono (by decide)
  | verify job again => exact verifyGuestAdb_takes ..
  | tcpip job => exact (runCmd_takes ..).mono (by decide)
  | setDst job => exact .of_eq rfl
  | stream job k => exact (adbForward_takes ..).mono (by decide)
  | giveUp job => exact .of_eq rfl
  | listen k ips made =>
    cases ips with
    | nil => exact .of_eq rfl
    | cons ip ips => exact (addListenerOn_takes ..).mono (by decide)
  | ready => exact .of_eq rfl

/-- A step leaves an end of the answers. -/
theorem Thread.next_answers {t t' : Thread} (h : t.next cfg = some t') :
    t'.tables.answers <:+ t.tables.answers := by
  obtain ⟨i, op, slot, -, -, rfl⟩ | ⟨op, todo, -, -, hmove⟩ := t.next_cases cfg h
  · exact (op.exec_takes i slot t.tables).suffix
  · cases hmove <;> exact List.suffix_rfl

/-! ## The slot is reached -/

/-- The adb port of the slot is about to be forwarded, or to be verified. -/
def SlotOp.approaches : SlotOp → Bool
  | .establish _ | .forward .. | .verify .. => true
  | _ => false

/-- The rescan will work on the slot `i`, whose guest is to be reached through a forward:
it has come back, or is worked on, or the list has a device for it. -/
inductive Due (i : Nat) (t : Thread) : Prop where
  | back (x : Slot) (hslot : t.tables.slot? i = some x) (hkind : x.kind ≠ .wireless)
      (hback : x.reappeared = true) (htodo : .refresh ∈ t.todo)
  | working (x : Slot) (op : SlotOp) (hslot : t.tables.slot? i = some x)
      (hkind : x.kind ≠ .wireless) (hwork : t.work = some (i, op)) (hop : op.approaches = true)
  | unplaced (serial : CString) (hfree : t.tables.slots.length ≤ i)
      (hgiven : (givenSerials t.tables.serials (t.todo.filterMap Op.device?))[i]? = some serial)
      (hkind : devKind serial ≠ .wireless)

/-- Since the tables `u` there has been an `adb connect` to the local port `loc`. -/
def Connected (u : Globals) (loc : Int) (s : Globals) : Prop :=
  ∃ new ok, s.trace = u.trace ++ new ∧ (.connect loc, ok) ∈ new

theorem Connected.mono {u : Globals} {loc : Int} (h : Connected u loc s)
    (htrace : s.trace <+: s'.trace) : Connected u loc s' := by
  obtain ⟨new, ok, hnew, hmem⟩ := h
  obtain ⟨more, hmore⟩ := htrace
  refine ⟨new ++ more, ok, ?_, List.mem_append_left _ hmem⟩
  rw [← hmore, hnew, List.append_assoc]

/-- A step only adds to the trace. -/
theorem Thread.next_trace {t t' : Thread} (h : t.next cfg = some t') :
    t.tables.trace <+: t'.tables.trace := by
  obtain ⟨i, op, slot, -, -, rfl⟩ | ⟨op, todo, -, -, hmove⟩ := t.next_cases cfg h
  · obtain ⟨new, hnew, -⟩ := @SlotOp.exec_trace cfg op i slot t.tables
    exact ⟨new, hnew.symm⟩
  · cases hmove <;> exact List.prefix_rfl

theorem Steady.forth (h : Steady s s') {i : Nat} {x : Slot} (hx : s.slot? i = some x) :
    ∃ x', s'.slot? i = some x' ∧ x.Steady x' := by
  have hlt : i < s'.slots.length := by
    rw [h.length]
    exact (List.getElem?_eq_some_iff.mp hx).1
  obtain ⟨y, hy, hsteady⟩ := h.slot i _ (List.getElem?_eq_getElem hlt)
  obtain rfl := Option.some.inj (hx.symm.trans hy)
  exact ⟨_, List.getElem?_eq_getElem hlt, hsteady⟩

/-- A forward works when the answer says so. -/
theorem adbForward_ok (serial : CString) (loc dev : Int) (s : Globals) :
    (adbForward serial loc dev s).2 = s.answer.2 := by
  have hrun : (runCmd (.forward serial loc dev) s).2 = s.answer.2 := rfl
  simp only [adbForward, hrun]
  cases s.answer.2 with
  | false => rfl
  | true =>
    simp only [Bool.not_true, Bool.false_eq_true, if_false]
    split
    · rfl
    · split <;> rfl

variable {u : Globals} {devs : List Dev} {i : Nat} {t t' : Thread}

/-- Work on a slot keeps what the rescan still has to do for another, and for this one it
goes on to the forward and to the guest. -/
theorem Due.exec (h : Due i t) (hre : Rescanning cfg u devs t) {j : Nat} {op : SlotOp} {slot : Slot}
    (hwork : t.work = some (j, op)) (hslot : t.tables.slot? j = some slot)
    (hok : t.tables.answer.2 = true) :
    Due i ⟨(op.exec cfg j slot t.tables).1, (op.exec cfg j slot t.tables).2.map fun op => (j, op),
        t.todo⟩ ∨
      Connected u (cfg.adbBase + i + locOffset) (op.exec cfg j slot t.tables).1 := by
  have hsteady : Steady t.tables (op.exec cfg j slot t.tables).1 := op.exec_steady j slot t.tables
  cases h with
  | back x hx hkind hback htodo =>
    obtain ⟨x', hx', hsame⟩ := hsteady.forth hx
    exact .inl (.back x' hx' (hsame.same.kind ▸ hkind) (hsame.reappeared ▸ hback) htodo)
  | unplaced serial hfree hgiven hkind =>
    exact .inl (.unplaced serial (hsteady.length ▸ hfree) (hsteady.serials ▸ hgiven) hkind)
  | working x op' hx hkind hwork' hop =>
    rw [hwork] at hwork'
    cases hwork'
    obtain rfl := Option.some.inj (hslot.symm.trans hx)
    cases op with
    | establish job =>
      refine .inl (.working slot (.forward job false) ?_ hkind ?_ rfl) <;>
        simp only [SlotOp.exec, if_pos hkind, hslot, Option.map_some]
    | forward job again =>
      refine .inl (.working slot (.verify job again) ?_ hkind ?_ rfl)
      · simp only [SlotOp.exec, Globals.slot?, adbForward_slots]
        exact hslot
      · simp only [SlotOp.exec, adbForward_ok, hok, if_true, Option.map_some]
    | verify job again =>
      obtain ⟨old, hold, -⟩ := hre.trace
      obtain ⟨rest, hrest, -⟩ := verifyGuestAdb_trace (slot.adbPort + locOffset) t.tables
      rw [hold, List.append_assoc] at hrest
      refine .inr ⟨_, t.tables.answer.2, hrest, List.mem_append_right old ?_⟩
      rw [(hre.tabled.slot i slot hslot).adbPort]
      exact List.mem_cons_self
    | tcpip | setDst | stream | giveUp | listen | ready => cases hop

/-- The head of the loop of phase B1 finds the slot that has come back, or one before it. -/
theorem Due.refresh (h : Due i t) (hwork : t.work = none) {todo : List Op}
    (htodo : t.todo = .refresh :: todo) : Due i (Op.exec cfg t.tables todo .refresh) := by
  have hdevices : t.todo.filterMap Op.device? = todo.filterMap Op.device? := by
    rw [htodo]
    rfl
  cases h with
  | working x op hx hkind hwork' hop =>
    rw [hwork] at hwork'
    cases hwork'
  | back x hx hkind hback _ =>
    simp only [Op.exec]
    split
    · rename_i hnone
      have hoff := List.findIdx?_eq_none_iff.mp hnone x (List.mem_of_getElem? hx)
      rw [hback] at hoff
      cases hoff
    · rename_i j hj
      have hx' : (t.tables.modifySlot j fun slot => { slot with reappeared := false }).slot? i =
          some (if j = i then { x with reappeared := false } else x) := by
        simp only [Globals.slot?, Globals.modifySlot, List.getElem?_modify]
        rw [show t.tables.slots[i]? = some x from hx]
        rfl
      by_cases hji : j = i
      · subst hji
        rw [if_pos rfl] at hx'
        exact .working _ (.establish .refresh) hx' hkind rfl rfl
      · rw [if_neg hji] at hx'
        exact .back x hx' hkind hback List.mem_cons_self
  | unplaced serial hfree hgiven hkind =>
    rw [hdevices] at hgiven
    simp only [Op.exec]
    split
    · exact .unplaced serial hfree hgiven hkind
    · rename_i j _
      have hserials := @serials_eq_of_same t.tables (fun slot => { slot with reappeared := false }) j
        fun x => ⟨rfl, rfl, rfl, rfl, .inl rfl⟩
      refine .unplaced serial ?_ ?_ hkind
      · exact Nat.le_trans (Nat.le_of_eq (List.length_modify ..)) hfree
      · exact hserials.symm ▸ hgiven

/-- Phase B2 for one device places it in the slot, or leaves the slot to another. -/
theorem Due.place (h : Due i t) (hwork : t.work = none) {todo : List Op} {d : Dev}
    (htodo : t.todo = .place d :: todo) : Due i (Op.exec cfg t.tables todo (.place d)) := by
  have hdevices : t.todo.filterMap Op.device? = d :: todo.filterMap Op.device? := by
    rw [htodo]
    rfl
  cases h with
  | working x op hx hkind hwork' hop =>
    rw [hwork] at hwork'
    cases hwork'
  | back x hx hkind hback hrefresh =>
    rw [htodo] at hrefresh
    have hrefresh' : .refresh ∈ todo := (List.mem_cons.mp hrefresh).resolve_left (by simp)
    rcases Op.place_cases t.tables todo d with ⟨warned, heq, -⟩ | ⟨-, heq, -⟩
    · rw [heq]
      exact .back x hx hkind hback hrefresh'
    · rw [heq]
      refine .back x ?_ hkind hback hrefresh'
      rw [Globals.slot?, List.getElem?_append_left (List.getElem?_eq_some_iff.mp hx).1]
      exact hx
  | unplaced serial hfree hgiven hkind =>
    rw [hdevices] at hgiven
    rcases Op.place_cases t.tables todo d with ⟨warned, heq, hrest⟩ | ⟨-, heq, hrest⟩
    · rw [heq]
      rw [hrest] at hgiven
      exact .unplaced serial hfree hgiven hkind
    rw [heq]
    rw [hrest] at hgiven
    rcases Nat.eq_or_lt_of_le hfree with rfl | hlt
    · -- the slot of the device is this one
      have hhere : (givenSerials (t.tables.serials ++ [d.serial])
          (todo.filterMap Op.device?))[t.tables.slots.length]? = some d.serial := by
        refine getElem?_of_prefix (prefix_givenSerials _ _) ?_
        rw [← length_serials, List.getElem?_concat_length]
      obtain rfl := Option.some.inj (hgiven.symm.trans hhere)
      refine .working (newSlot cfg d t.tables.slots.length) (.establish .setup) ?_ ?_ rfl rfl
      · simp [Globals.slot?]
      · rw [(newSlot_at d t.tables.slots.length).kind, newSlot_serial]
        exact hkind
    · refine .unplaced serial ?_ ?_ hkind
      · rw [List.length_append]
        exact hlt
      · rw [serials_give]
        exact hgiven

theorem Due.next (h : Due i t) (hre : Rescanning cfg u devs t) (ht : t.next cfg = some t')
    (hok : t.tables.answer.2 = true) :
    Due i t' ∨ Connected u (cfg.adbBase + i + locOffset) t'.tables := by
  unfold Thread.next at ht
  split at ht
  · rename_i j op hwork
    split at ht
    · rename_i slot hslot
      cases ht
      exact h.exec hre hwork hslot hok
    · cases ht
  · rename_i hwork
    split at ht
    · cases ht
    · rename_i op todo htodo
      cases ht
      cases op with
      | look ds => exact absurd (htodo ▸ List.mem_cons_self) (hre.looked ds)
      | refresh => exact .inl (h.refresh hwork htodo)
      | place d => exact .inl (h.place hwork htodo)

/-- At the end of the rescan nothing is left to do. -/
theorem Due.not_done (h : Due i ⟨s, none, []⟩) : False := by
  cases h with
  | back x hx hkind hback hrefresh => cases hrefresh
  | working x op hx hkind hwork hop => cases hwork
  | unplaced serial hfree hgiven hkind =>
    have hlt := (List.getElem?_eq_some_iff.mp hgiven).1
    exact Nat.lt_irrefl _ (Nat.lt_of_lt_of_le (length_serials s ▸ hlt) hfree)

/-- Where `Spares` fails, some slot is due after phase A, and its guest has the address of
a device that stays. -/
theorem Between.due (h : Between cfg u) (hnot : ¬Spares cfg u devs) :
    ∃ i, Due i (Op.exec cfg u [] (.look devs)) ∧
      ¬Fresh u devs (guestAddress (cfg.adbBase + i + locOffset)) := by
  simp only [Spares, not_forall] at hnot
  obtain ⟨i, -, hworked, ⟨serial, hserial, hkind⟩, hnot⟩ := hnot
  refine ⟨i, ?_, hnot⟩
  have hserials : (phaseA devs u).serials = u.serials := serials_phaseA devs
  rcases Nat.lt_or_ge i u.slots.length with hlt | hge
  · -- the slot has come back
    have hx : u.slot? i = some u.slots[i] := List.getElem?_eq_getElem hlt
    obtain ⟨hready, habsent, d, hd, hback⟩ := hworked _ hx
    have hold : (givenSerials u.serials devs)[i]? = some u.slots[i].serial :=
      getElem?_of_prefix (prefix_givenSerials _ _) (serials_getElem? hx)
    obtain rfl := Option.some.inj (hold.symm.trans hserial)
    refine .back (u.slots[i].look devs) ?_ ?_ ?_ List.mem_cons_self
    · simp only [Op.exec, Globals.slot?, phaseA, List.getElem?_map]
      rw [List.getElem?_eq_getElem hlt]
      rfl
    · have hat := (h.tabled.slot i _ hx).kind
      exact fun hw => hkind (hat.symm.trans hw)
    · have hseen : (devs.any fun d => u.slots[i].serial = d.serial) = true :=
        List.any_eq_true.mpr ⟨d, hd, by simpa using hback.symm⟩
      simp [Slot.look, hseen, habsent, hready]
  · have hplaces : (Op.refresh :: devs.map Op.place ++ []).filterMap Op.device? = devs := by
      rw [List.append_nil]
      exact (List.filterMap_map ..).trans List.filterMap_some
    refine .unplaced serial ?_ ?_ hkind
    · exact Nat.le_trans (Nat.le_of_eq (List.length_map ..)) hge
    · simp only [Op.exec, hplaces, hserials]
      exact hserial

/-- With commands that succeed, such a rescan connects to the address. -/
theorem Between.connected (h : Between cfg u) (hdue : Due i (Op.exec cfg u [] (.look (devs.take 64))))
    (hall : ∀ ok ∈ u.answers, ok = true)
    (hleft : (rescanOnce cfg (some devs) u).answers ≠ []) :
    Connected u (cfg.adbBase + i + locOffset) (rescanOnce cfg (some devs) u) := by
  have hgoes : Goes cfg ⟨u, none, [.look (devs.take 64)]⟩ ⟨rescanOnce cfg (some devs) u, none, []⟩ :=
    rescan_whole (some devs) u
  have hend := hgoes.keeps (I := fun t => t = ⟨u, none, [.look (devs.take 64)]⟩ ∨
    (Rescanning cfg u (devs.take 64) t ∧ t.tables.answers <:+ u.answers ∧ (t.tables.answers = [] ∨
      Due i t ∨ Connected u (cfg.adbBase + i + locOffset) t.tables))) (fun t t' ht hnext => ?_)
    (.inl rfl)
  · rcases hend with heq | ⟨-, -, hempty | hend | hend⟩
    · cases congrArg Thread.todo heq
    · exact absurd hempty hleft
    · exact hend.not_done.elim
    · exact hend
  · rcases ht with rfl | ⟨hre, hsuffix, hcases⟩
    · cases hnext
      exact .inr ⟨h.look (devs.take 64), List.suffix_rfl, .inr (.inl hdue)⟩
    · have hanswers := Thread.next_answers hnext
      refine .inr ⟨hre.next hnext, hanswers.trans hsuffix, ?_⟩
      rcases hcases with hempty | hdue' | hconnected
      · rw [hempty] at hanswers
        exact .inl (List.suffix_nil.mp hanswers)
      · cases hhead : t.tables.answers with
        | nil =>
          rw [hhead] at hanswers
          exact .inl (List.suffix_nil.mp hanswers)
        | cons ok answers =>
          have hok : t.tables.answer.2 = true := by
            simp only [Globals.answer, hhead, List.headD_cons]
            exact hall ok (hsuffix.subset (hhead ▸ List.mem_cons_self))
          exact .inr (hdue'.next hre hnext hok)
      · exact .inr (.inr (hconnected.mono (Thread.next_trace hnext)))

/-- Any number of commands may succeed. -/
theorem exists_successes (n : Nat) : ∃ answers : List Bool,
    (∀ ok ∈ answers, ok = true) ∧ n < answers.length := by
  refine ⟨List.replicate (n + 1) true, fun ok hok => List.eq_of_mem_replicate hok, ?_⟩
  rw [List.length_replicate]
  exact Nat.lt_succ_self n

/-- **When a rescan spares the devices that stay**, in every state of every run. Whatever
its commands come to, they are for serials that are new or have come back, exactly if none
of the others has the address under which a guest is verified. Listeners are only added, a
failed `adb devices` changes nothing, and a list with the serials of the last one runs no
command and leaves the slots as they are. -/
theorem rescan_spares_iff (cfg : Config) (as : List AgentAct) {s : Globals}
    (hrun : (agentLts cfg).run (agentLts cfg).init as = some s) (hstarted : s.started = true) :
    (∀ devs : List Dev,
      (∀ answers s', agentStep cfg s (.rescan (some devs) answers) = some s' →
        ∃ new, s'.trace = s.trace ++ new ∧ ∀ p ∈ new, Fresh s (devs.take 64) p.1.serial) ↔
        Spares cfg s (devs.take 64)) ∧
      ∀ listed answers s', agentStep cfg s (.rescan listed answers) = some s' →
        s.listeners <+: s'.listeners ∧ (listed = none → s' = { s with answers := answers }) ∧
        ∀ last ds, LastList as last → listed = some ds → SameSerials (last.take 64) (ds.take 64) →
          s'.slots = s.slots ∧ s'.trace = s.trace ∧ s'.listeners = s.listeners := by
  refine ⟨fun devs => ⟨fun hall => ?_, fun hspares answers s' hstep => rescan_fresh hrun hstep hspares⟩,
    fun listed answers s' hstep => rescan_quiet hrun hstep⟩
  by_contra hnot
  obtain ⟨answers, hsucceed, hmany⟩ :=
    exists_successes (s.slots.length * 13 + (devs.take 64).length * setupAnswers cfg)
  have hbetween : Between cfg { s with answers := answers } :=
    (between_run hrun).of_tables rfl rfl rfl
  have hnot' : ¬Spares cfg { s with answers := answers } (devs.take 64) := hnot
  obtain ⟨i, hdue, hfresh⟩ := hbetween.due hnot'
  have hleft : (rescanOnce cfg (some devs) { s with answers := answers }).answers ≠ [] :=
    (rescanOnce_takes devs _).left hmany
  obtain ⟨new, ok, hnew, hmem⟩ := hbetween.connected hdue hsucceed hleft
  obtain ⟨new', hnew', hfresh'⟩ := hall answers _ (if_pos hstarted)
  obtain rfl := List.append_cancel_left (hnew.symm.trans hnew')
  exact hfresh (hfresh' _ hmem)

/-- An emulator is there, and a phone is plugged in. -/
theorem rescan_spares_phone : ∃ s s', (agentLts (.default [])).run (agentLts (.default [])).init
      [.start [true], .rescan (some [emulator]) (List.replicate 14 true)] = some s ∧
    agentStep (.default []) s (.rescan (some [emulator, phone]) (List.replicate 14 true)) = some s' ∧
    s'.trace.length = s.trace.length + 8 ∧
    ∃ new, s'.trace = s.trace ++ new ∧ ∀ p ∈ new, Fresh s [emulator, phone] p.1.serial := by
  refine ⟨_, _, rfl, rfl, by decide, ?_⟩
  exact ((rescan_spares_iff (.default []) [.start [true], .rescan (some [emulator])
    (List.replicate 14 true)] rfl rfl).1 [emulator, phone]).mpr (by decide) _ _ rfl

/-- A device that adb has been connected to at a port of this host. -/
def localDevice : Dev :=
  ⟨['1', '2', '7', '.', '0', '.', '0', '.', '1', ':', '2', '5', '5', '5', '4'], [], by decide⟩

/-- It has slot 0; the emulator that comes gets slot 1, its adb port is forwarded to port
25554, and once verified that address is disconnected. -/
theorem rescan_disconnects :
    ¬∀ (cfg : Config) (as : List AgentAct) (s s' : Globals) (devs : List Dev) (answers : List Bool),
      (agentLts cfg).run (agentLts cfg).init as = some s →
      agentStep cfg s (.rescan (some devs) answers) = some s' →
      ∀ p ∈ s'.trace.drop s.trace.length, Fresh s (devs.take 64) p.1.serial := by
  intro h
  have hfresh := h (.default []) [.start [true], .rescan (some [localDevice]) (List.replicate 9 true)]
    _ _ [localDevice, emulator] (List.replicate 13 true) rfl rfl (.disconnect 25554, true)
    (by decide)
  revert hfresh
  decide

end RigControl.Agent
