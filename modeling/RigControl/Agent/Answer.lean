import RigControl.Agent.Refreshed
import RigControl.Agent.Whole
import RigControl.Lib.Decimal
import RigControl.Lib.Words

/-!
# The answer at the discovery port

`list_devices` reads the output of adb word by word, so that no blank, tab or line end
gets into a serial or a model; `discovery_write` puts them between tabs, in a buffer of
4096 bytes. A character is a byte. With the default `--adb-base` the lines of a full
table fit (`discoveryWrite_eq`).
-/

namespace RigControl.Agent

open RigControl.Lib

def agentProtocolVersion : Int := 1

/-! ## `list_devices` -/

/-- The word in front, by `%s`, and what is behind it. -/
def word (cs : CString) : CString := (cs.dropWhile isSpace).takeWhile fun c => !isSpace c

/-- `%127s %63s`. A word that is too long is cut, and goes on as the next one. -/
def serialAndState (line : CString) : Option (CString × CString) :=
  let serial := (word line).take 127
  let state := (word ((line.dropWhile isSpace).drop serial.length)).take 63
  if serial = [] ∨ state = [] then none else some (serial, state)

/-- Behind the first `model:`, by `strstr`. -/
def modelOf (line : CString) : CString :=
  match after "model:".toList line with
  | some rest => (word rest).take 95
  | none => []

def listedDev (line : CString) : Option Dev :=
  match serialAndState line with
  | some (serial, state) =>
    if state = "device".toList then
      some ⟨serial.take 127, (modelOf line).take 95,
        ⟨List.length_take_le .., List.length_take_le ..⟩⟩
    else none
  | none => none

/-- `strtok_r` on line ends. -/
def tokens (out : CString) : List CString :=
  ((out.takeWhile (· ≠ '\x00')).splitOn '\n').filter (· ≠ [])

/-- `list_devices`; `none` is an `adb devices` that failed. -/
def listDevices (cap : Nat) (out : Option CString) : Option (List Dev) :=
  out.map fun out => ((tokens (out.take 16383)).filterMap listedDev).take cap

/-! ## `discovery_write` -/

def Kind.name : Kind → CString
  | .emulator => "emulator".toList
  | .usb => "USB".toList
  | .wireless => "wireless".toList

def banner : CString := "RCAGENT ".toList ++ decimal agentProtocolVersion ++ ['\n']

/-- A field must not be empty. -/
def modelOrDash (model : CString) : CString := if model = [] then ['-'] else model

def DeviceLine.text (line : DeviceLine) : CString :=
  decimal line.adbPort ++ '\t' :: (line.kind.name ++ '\t' :: (line.serial ++ '\t' ::
    (modelOrDash line.model ++ '\t' :: (decimal line.streamBase ++ ['\n']))))

/-- `snprintf` behind what is in the buffer; a text that does not fit is cut, and ends
in a NUL. -/
def snprintfAt (cap : Nat) (buf text : CString) : CString :=
  if buf.length + text.length < cap then buf ++ text
  else buf ++ text.take (cap - 1 - buf.length) ++ ['\x00']

/-- What `discovery_write` sends. -/
def discoveryWrite (s : Globals) : CString :=
  (deviceLines s).foldl
    (fun buf line => if buf.length < 4096 then snprintfAt 4096 buf line.text else buf)
    (snprintfAt 4096 [] banner)

/-! ## What can be in a field -/

/-- No blank, no line end, no NUL. -/
def Plain (cs : CString) : Prop := ∀ c ∈ cs, isSpace c = false ∧ c ≠ '\x00'

/-- What adb lists. -/
def Dev.Plain (d : Dev) : Prop := d.serial ≠ [] ∧ Agent.Plain d.serial ∧ Agent.Plain d.model

instance (cs : CString) : Decidable (Plain cs) := List.decidableBAll _ _

instance (d : Dev) : Decidable d.Plain := inferInstanceAs (Decidable (_ ∧ _ ∧ _))

theorem Plain.mono {cs ds : CString} (h : Plain cs) (hsub : ds ⊆ cs) : Plain ds :=
  fun c hc => h c (hsub hc)

/-- A word of a text without NUL. -/
theorem word_plain {cs : CString} (h : ∀ c ∈ cs, c ≠ '\x00') : Plain (word cs) := by
  intro c hc
  have hspace : (!isSpace c) = true := @List.mem_takeWhile_imp _ (fun c => !isSpace c) _ _ hc
  have hmem : c ∈ cs := (List.dropWhile_sublist _).subset ((List.takeWhile_sublist _).subset hc)
  exact ⟨by simpa using hspace, h c hmem⟩

theorem modelOf_plain {line : CString} (h : ∀ c ∈ line, c ≠ '\x00') : Plain (modelOf line) := by
  unfold modelOf
  split
  · rename_i rest hrest
    exact (word_plain fun c hc => h c (after_subset hrest hc)).mono (List.take_subset ..)
  · exact fun c hc => absurd hc List.not_mem_nil

theorem listedDev_plain {line : CString} (h : ∀ c ∈ line, c ≠ '\x00') {d : Dev}
    (hd : listedDev line = some d) : d.Plain := by
  unfold listedDev serialAndState at hd
  simp only at hd
  split at hd
  · rename_i serial state hwords
    split at hwords
    · cases hwords
    · rename_i hne
      cases hwords
      split at hd
      · cases hd
        have hword := (word_plain h).mono (List.take_subset 127 _)
        refine ⟨?_, hword.mono (List.take_subset ..),
          (modelOf_plain h).mono (List.take_subset ..)⟩
        simp only [List.take_take, Nat.min_self]
        exact fun h0 => hne (.inl h0)
      · cases hd
  · cases hd

/-- Whatever adb prints. -/
theorem listDevices_plain {cap : Nat} {out : Option CString} {devs : List Dev}
    (h : listDevices cap out = some devs) : ∀ d ∈ devs, d.Plain := by
  obtain ⟨text, -, rfl⟩ := Option.map_eq_some_iff.mp h
  intro d hd
  obtain ⟨line, hline, hd⟩ := List.mem_filterMap.mp (List.mem_of_mem_take hd)
  refine listedDev_plain (fun c hc => ?_) hd
  have hmem := mem_of_mem_splitOn (List.mem_of_mem_filter hline) hc
  simpa using List.mem_takeWhile_imp hmem

/-! ## What is in the table -/

def ThreadAct.Plain : ThreadAct → Prop
  | .rescan (some devs) _ => ∀ d ∈ devs, d.Plain
  | _ => True

instance : (a : ThreadAct) → Decidable a.Plain
  | .rescan (some _) _ => List.decidableBAll _ _
  | .rescan none _ | .start _ | .step => instDecidableTrue

def Op.Plain : Op → Prop
  | .look devs => ∀ d ∈ devs, d.Plain
  | .place d => d.Plain
  | .refresh => True

variable (cfg : Config)

/-- A slot that fits a line of the answer. -/
structure Slot.Listable (slot : Slot) (i : Nat) : Prop where
  place : slot.At cfg i
  serial : slot.serial ≠ [] ∧ slot.serial.length ≤ 127 ∧ Plain slot.serial
  model : slot.model.length ≤ 95 ∧ Plain slot.model

structure Listed (t : Thread) : Prop where
  room : t.tables.slots.length ≤ maxSlots
  slot : ∀ i slot, t.tables.slot? i = some slot → slot.Listable cfg i
  todo : ∀ op ∈ t.todo, op.Plain

variable {cfg}

theorem Slot.Listable.mono {x y : Slot} {i : Nat} (h : x.Listable cfg i) (hxy : x.Same y)
    (hmodel : y.model = x.model) : y.Listable cfg i :=
  ⟨h.place.mono hxy, hxy.serial ▸ h.serial, hmodel ▸ h.model⟩

theorem newSlot_listable {d : Dev} (hd : d.Plain) (i : Nat) : (newSlot cfg d i).Listable cfg i where
  place := newSlot_at d i
  serial := by
    refine ⟨fun h0 => hd.1 ?_, List.length_take_le .., hd.2.1.mono (List.take_subset ..)⟩
    exact (List.take_eq_nil_iff.mp h0).resolve_left (by decide)
  model := ⟨List.length_take_le .., hd.2.2.mono (List.take_subset ..)⟩

/-- A step of the work changes one slot at most, and not what it is. -/
theorem SlotOp.exec_modify (op : SlotOp) (i : Nat) (slot : Slot) (s : Globals) :
    ∃ f : Slot → Slot, (op.exec cfg i slot s).1.slots = s.slots.modify i f ∧
      ∀ x, x.Same (f x) ∧ (f x).model = x.model := by
  have hsame : ∀ s' : Globals, s'.slots = s.slots → ∃ f : Slot → Slot,
      s'.slots = s.slots.modify i f ∧ ∀ x, x.Same (f x) ∧ (f x).model = x.model :=
    fun s' hs' => ⟨id, by rw [hs', List.modify_id], fun x => ⟨.refl x, rfl⟩⟩
  have hdst : ∀ host port, ∃ f : Slot → Slot, (Agent.setDst i host port s).slots =
      s.slots.modify i f ∧ ∀ x, x.Same (f x) ∧ (f x).model = x.model :=
    fun host port => ⟨_, rfl, fun x => ⟨⟨rfl, rfl, rfl, rfl, .inl rfl⟩, rfl⟩⟩
  cases op with
  | establish job =>
    simp only [SlotOp.exec]
    split
    · exact hsame s rfl
    · split
      · exact hdst ..
      · exact hsame s rfl
  | forward job again => exact hsame _ (adbForward_slots ..)
  | verify job again => exact hsame _ (verifyGuestAdb_slots ..)
  | tcpip job => exact hsame _ rfl
  | setDst job => exact hdst ..
  | stream job k => exact hsame _ (adbForward_slots ..)
  | giveUp job => exact ⟨_, rfl, fun x => ⟨⟨rfl, rfl, rfl, rfl, .inr rfl⟩, rfl⟩⟩
  | listen k ips made =>
    cases ips with
    | nil => exact hsame s rfl
    | cons ip ips => exact hsame _ (addListenerOn_slots ..)
  | ready => exact ⟨_, rfl, fun x => ⟨⟨rfl, rfl, rfl, rfl, .inl rfl⟩, rfl⟩⟩

theorem Listed.modify {t : Thread} (h : Listed cfg t) {s : Globals} {i : Nat} {f : Slot → Slot}
    (hs : s.slots = t.tables.slots.modify i f) (hf : ∀ x, x.Same (f x) ∧ (f x).model = x.model)
    {work : Option (Nat × SlotOp)} {todo : List Op} (htodo : ∀ op ∈ todo, op.Plain) :
    Listed cfg ⟨s, work, todo⟩ where
  room := by
    rw [hs, List.length_modify]
    exact h.room
  slot j y hy := by
    simp only [Globals.slot?, hs, List.getElem?_modify] at hy
    obtain ⟨x, hx, rfl⟩ := Option.map_eq_some_iff.mp hy
    have hx' := h.slot j x hx
    split
    · exact hx'.mono (hf x).1 (hf x).2
    · exact hx'
  todo := htodo

theorem Listed.next {t t' : Thread} (h : Listed cfg t) (ht : t.next cfg = some t') :
    Listed cfg t' := by
  rcases t.next_cases cfg ht with ⟨i, op, slot, -, -, rfl⟩ | ⟨op, todo, -, htodo, hmove⟩
  · obtain ⟨f, hs, hf⟩ := op.exec_modify i slot t.tables
    exact h.modify hs hf h.todo
  · have hrest : ∀ op ∈ todo, op.Plain := fun op hop => h.todo op (by simp [htodo, hop])
    have hop : op.Plain := h.todo op (by simp [htodo])
    have hstay : ∀ s : Globals, s.slots = t.tables.slots → Listed cfg ⟨s, none, todo⟩ :=
      fun s hs => @Listed.modify _ _ h s 0 id (by rw [hs, List.modify_id])
        (fun x => ⟨.refl x, rfl⟩) none todo hrest
    cases hmove with
    | look devs =>
      refine ⟨by simpa [phaseA] using h.room, fun i y hy => ?_, fun op hmem => ?_⟩
      · simp only [Globals.slot?, phaseA, List.getElem?_map] at hy
        obtain ⟨x, hx, rfl⟩ := Option.map_eq_some_iff.mp hy
        exact (h.slot i x hx).mono ⟨rfl, rfl, rfl, rfl, .inl rfl⟩ rfl
      · simp only [List.cons_append, List.mem_cons, List.mem_append, List.mem_map] at hmem
        rcases hmem with rfl | ⟨d, hd, rfl⟩ | hmem
        · trivial
        · exact hop d hd
        · exact hrest op hmem
    | idle op warned => exact hstay _ rfl
    | refresh i =>
      refine @Listed.modify _ _ h _ i (fun slot => { slot with reappeared := false }) rfl
        (fun x => ⟨⟨rfl, rfl, rfl, rfl, .inl rfl⟩, rfl⟩) _ _ fun op hmem => ?_
      rcases List.mem_cons.mp hmem with rfl | hmem
      · trivial
      · exact hrest op hmem
    | give d hnew hroom =>
      refine ⟨?_, fun i x hx => ?_, hrest⟩
      · simp only [List.length_append, List.length_singleton]
        omega
      · rcases Nat.lt_or_ge i t.tables.slots.length with hlt | hge
        · exact h.slot i x (by simpa [Globals.slot?, List.getElem?_append_left hlt] using hx)
        · simp only [Globals.slot?, List.getElem?_append_right hge] at hx
          obtain ⟨hi, rfl⟩ : i = t.tables.slots.length ∧
              newSlot cfg d t.tables.slots.length = x := by
            obtain ⟨hlt, hget⟩ := List.getElem?_eq_some_iff.mp hx
            simp only [List.length_singleton] at hlt
            exact ⟨by omega, by simpa using hget⟩
          exact hi ▸ newSlot_listable hop _

theorem Listed.step {t t' : Thread} {a : ThreadAct} (h : Listed cfg t) (ha : a.Plain)
    (ht : threadStep cfg t a = some t') : Listed cfg t' := by
  cases a with
  | start answers =>
    obtain ⟨s, hs, rfl⟩ := Option.map_eq_some_iff.mp ht
    have hslots : s.slots = t.tables.slots := start_slots cfg hs
    exact @Listed.modify _ _ h s 0 id (by rw [hslots, List.modify_id])
      (fun x => ⟨.refl x, rfl⟩) none [] (by simp)
  | rescan devs answers =>
    obtain rfl := threadStep_rescan cfg ht
    refine ⟨h.room, h.slot, fun op hop => ?_⟩
    cases devs with
    | none => cases hop
    | some devs =>
      obtain rfl := List.mem_singleton.mp hop
      exact fun d hd => ha d (List.mem_of_mem_take hd)
  | step => exact h.next ht

theorem listed_run {as : List ThreadAct} (has : ∀ a ∈ as, a.Plain) {t : Thread}
    (h : (threadLts cfg).run (threadLts cfg).init as = some t) : Listed cfg t := by
  have hinit : Listed cfg (threadLts cfg).init :=
    ⟨Nat.zero_le _, fun i slot hs => (by cases hs), fun op hop => (by cases hop)⟩
  exact Lts.invariant_on (fun t a t' ht ha hstep => ht.step ha hstep) hinit
    (Lts.meets_of_forall _ has) h

/-! ## The lines fit -/

theorem Kind.name_length (k : Kind) : k.name.length ≤ 8 := by
  cases k <;> decide

theorem length_modelOrDash_le {cs : CString} (h : cs.length ≤ 95) :
    (modelOrDash cs).length ≤ 95 := by
  unfold modelOrDash
  split
  · decide
  · exact h

/-- The numbers of a slot of the default table have five digits at most. -/
theorem Slot.Listable.ports {slot : Slot} {i : Nat} (hbase : cfg.adbBase = defaultAdbBase)
    (hi : i < maxSlots) (h : slot.Listable cfg i) :
    (0 < slot.adbPort ∧ slot.adbPort < 10 ^ 5) ∧ 0 ≤ slot.streamBase ∧ slot.streamBase < 10 ^ 5 := by
  have hport := h.place.adbPort
  have hstream := h.place.streamBase
  simp only [hbase, defaultAdbBase, maxSlots, streamPort, Agent.streamBase, Agent.streamCount]
    at hport hi hstream
  omega

theorem Slot.Listable.text_length {slot : Slot} {i : Nat} (hbase : cfg.adbBase = defaultAdbBase)
    (hi : i < maxSlots) (h : slot.Listable cfg i) : slot.line.text.length ≤ 245 := by
  obtain ⟨⟨hport, hport'⟩, hstream, hstream'⟩ := h.ports hbase hi
  have hportLen : (decimal slot.adbPort).length ≤ 5 :=
    length_decimal_le (by decide) (Int.le_of_lt hport) hport'
  have hstreamLen : (decimal slot.streamBase).length ≤ 5 :=
    length_decimal_le (by decide) hstream hstream'
  have hmodel := length_modelOrDash_le h.model.1
  have hkind := slot.kind.name_length
  have hserial := h.serial.2.1
  simp only [DeviceLine.text, Slot.line, List.length_append, List.length_cons, List.length_nil]
  omega

theorem writeLines_eq {cap : Nat} (lines : List DeviceLine) (buf : CString)
    (h : buf.length + (lines.flatMap DeviceLine.text).length < cap) :
    lines.foldl (fun buf line => if buf.length < cap then snprintfAt cap buf line.text else buf)
      buf = buf ++ lines.flatMap DeviceLine.text := by
  induction lines generalizing buf with
  | nil => simp
  | cons line lines ih =>
    simp only [List.flatMap_cons, List.length_append] at h
    have hstep : (if buf.length < cap then snprintfAt cap buf line.text else buf) =
        buf ++ line.text := by
      rw [if_pos (by omega), snprintfAt, if_pos (by omega)]
    rw [List.foldl_cons, hstep, ih _ (by simp only [List.length_append]; omega),
      List.flatMap_cons, List.append_assoc]

theorem flatMap_length_le {lines : List DeviceLine} {n : Nat}
    (h : ∀ line ∈ lines, line.text.length ≤ n) :
    (lines.flatMap DeviceLine.text).length ≤ n * lines.length := by
  induction lines with
  | nil => simp
  | cons line lines ih =>
    have hline := h line List.mem_cons_self
    have hlines := ih fun l hl => h l (List.mem_cons_of_mem _ hl)
    simp only [List.flatMap_cons, List.length_append, List.length_cons, Nat.mul_add, Nat.mul_one]
    omega

/-- The slot behind a line. -/
theorem mem_deviceLines {s : Globals} {line : DeviceLine} (h : line ∈ deviceLines s) :
    ∃ i slot, s.slot? i = some slot ∧ line = slot.line := by
  obtain ⟨slot, hslot, rfl⟩ := List.mem_map.mp h
  obtain ⟨i, hi⟩ := List.mem_iff_getElem?.mp (List.mem_of_mem_filter hslot)
  exact ⟨i, slot, hi, rfl⟩

/-- The whole answer, and room to spare. -/
theorem discoveryWrite_eq {t : Thread} (h : Listed cfg t) (hbase : cfg.adbBase = defaultAdbBase) :
    discoveryWrite t.tables = banner ++ (deviceLines t.tables).flatMap DeviceLine.text ∧
      (banner ++ (deviceLines t.tables).flatMap DeviceLine.text).length < 4096 := by
  have hlines : ((deviceLines t.tables).flatMap DeviceLine.text).length ≤
      245 * (deviceLines t.tables).length := by
    refine flatMap_length_le fun line hline => ?_
    obtain ⟨i, slot, hs, rfl⟩ := mem_deviceLines hline
    have hlt : i < t.tables.slots.length := (List.getElem?_eq_some_iff.mp hs).1
    exact (h.slot i slot hs).text_length hbase (Nat.lt_of_lt_of_le hlt h.room)
  have hcount : (deviceLines t.tables).length ≤ 8 := by
    rw [deviceLines, List.length_map]
    exact Nat.le_trans (List.length_filter_le ..) h.room
  have hbanner : banner.length = 10 := by decide
  have hlen : banner.length + ((deviceLines t.tables).flatMap DeviceLine.text).length < 4096 := by
    omega
  refine ⟨?_, by simpa using hlen⟩
  have hfirst : snprintfAt 4096 [] banner = banner := by decide
  rw [discoveryWrite, hfirst]
  exact writeLines_eq _ _ hlen

end RigControl.Agent
