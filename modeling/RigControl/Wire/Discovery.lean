import RigControl.Agent.Answer
import RigControl.Gtk.Agent

/-!
# From the table of the agent to the list of a client

`discovery_write` and `agent_scan` are two programs with nothing in common but the
format, which escapes nothing. What the words of adb cannot contain keeps it apart:
the answer splits again into its lines and fields, and every field fits where the
client puts it.
-/

namespace RigControl.Wire

open RigControl.Lib RigControl.Agent RigControl.Gtk

/-- What a client that reads a line at the address `ip` has to make of it. -/
def scanned (ip : CString) (line : DeviceLine) : ScannedDev where
  host := ip
  serial := ip ++ ':' :: decimal line.adbPort
  model := if line.model = [] then ['-'] else line.model
  kind := line.kind.name
  adbPort := line.adbPort
  streamBase := line.streamBase

/-! ## Fields -/

/-- Neither a separator nor the end of the text. -/
def Field (cs : CString) : Prop := ∀ c ∈ cs, c ≠ '\t' ∧ c ≠ '\n' ∧ c ≠ '\x00'

instance (cs : CString) : Decidable (Field cs) := List.decidableBAll _ _

theorem Field.append {cs ds : CString} (h : Field cs) (h' : Field ds) : Field (cs ++ ds) := by
  intro c hc
  rcases List.mem_append.mp hc with hc | hc
  · exact h c hc
  · exact h' c hc

theorem field_decimal (n : Int) : Field (decimal n) := by
  intro c hc
  rcases mem_decimal hc with rfl | hdigit
  · decide
  · refine ⟨?_, ?_, ?_⟩ <;>
    · rintro rfl
      cases hdigit

theorem field_kind (k : Kind) : Field k.name := by
  cases k <;> decide

theorem field_plain {cs : CString} (h : Plain cs) : Field cs := by
  intro c hc
  obtain ⟨hspace, hnul⟩ := h c hc
  refine ⟨?_, ?_, hnul⟩ <;>
  · rintro rfl
    cases hspace

theorem field_model {cs : CString} (h : Plain cs) : Field (modelOrDash cs) := by
  unfold modelOrDash
  split
  · decide
  · exact field_plain h

/-- A text without NUL is split whole. -/
theorem strsplit_eq {sep : Char} {text : CString} (h : ∀ c ∈ text, c ≠ '\x00') (hne : text ≠ []) :
    strsplit sep text = text.splitOn sep := by
  have hwhole : text.takeWhile (· ≠ '\x00') = text :=
    List.takeWhile_eq_self_iff.mpr fun c hc => by simpa using h c hc
  simp only [strsplit, hwhole, if_neg hne]

/-! ## Lines -/

/-- A line of the answer without its end. -/
def body (line : DeviceLine) : CString :=
  decimal line.adbPort ++ '\t' :: (line.kind.name ++ '\t' :: (line.serial ++ '\t' ::
    (modelOrDash line.model ++ '\t' :: decimal line.streamBase)))

theorem text_eq (line : DeviceLine) : line.text = body line ++ ['\n'] := by
  simp [DeviceLine.text, body]

theorem body_ne_nil (line : DeviceLine) : body line ≠ [] := by
  simp [body]

variable {cfg : Config} {slot : Slot} {i : Nat}

theorem body_mem (h : slot.Listable cfg i) {c : Char} (hc : c ∈ body slot.line) :
    c ≠ '\n' ∧ c ≠ '\x00' := by
  have hfields : Field (decimal slot.adbPort ++ (slot.kind.name ++ (slot.serial ++
      (modelOrDash slot.model ++ decimal slot.streamBase)))) :=
    (field_decimal _).append ((field_kind _).append ((field_plain h.serial.2.2).append
      ((field_model h.model.2).append (field_decimal _))))
  by_cases htab : c = '\t'
  · subst htab
    decide
  · refine (hfields c ?_).2
    simpa [body, Slot.line, htab] using hc

/-- The fields of a line. -/
theorem body_split (h : slot.Listable cfg i) : strsplit '\t' (body slot.line) =
    [decimal slot.adbPort, slot.kind.name, slot.serial, modelOrDash slot.model,
      decimal slot.streamBase] := by
  have hnotab : ∀ {cs : CString}, Field cs → '\t' ∉ cs := fun hcs hmem => (hcs _ hmem).1 rfl
  rw [strsplit_eq (fun c hc => (body_mem h hc).2) (body_ne_nil _)]
  simp only [body, Slot.line]
  rw [List.splitOn_append_cons_self_of_not_mem (hnotab (field_decimal _)),
    List.splitOn_append_cons_self_of_not_mem (hnotab (field_kind _)),
    List.splitOn_append_cons_self_of_not_mem (hnotab (field_plain h.serial.2.2)),
    List.splitOn_append_cons_self_of_not_mem (hnotab (field_model h.model.2)),
    List.splitOn_eq_singleton (hnotab (field_decimal _))]

theorem atoi32_decimal_end {n : Int} (hlo : 0 ≤ n) (hhi : n < 10 ^ 5) : atoi32 (decimal n) = n := by
  have hread := @atoi32_decimal n (by omega) (by omega) [] (by simp)
  rwa [List.append_nil] at hread

/-- A line of a full table is read back. -/
theorem parseDevLine_body (hbase : cfg.adbBase = defaultAdbBase) (hi : i < maxSlots)
    (h : slot.Listable cfg i) {ip : CString} (hip : ip.length ≤ 63) :
    parseDevLine ip (body slot.line) = some (scanned ip slot.line) := by
  obtain ⟨⟨hport, hport'⟩, hstream, hstream'⟩ := h.ports hbase hi
  have hmodel := length_modelOrDash_le h.model.1
  have hkind : slot.kind.name.length ≤ 15 := Nat.le_trans slot.kind.name_length (by decide)
  have haddress : (address ip slot.adbPort).length ≤ 127 := by
    have hdigits : (decimal slot.adbPort).length ≤ 5 :=
      length_decimal_le (by decide) (Int.le_of_lt hport) hport'
    simp only [address, List.length_append, List.length_cons]
    omega
  unfold parseDevLine
  rw [body_split h]
  simp only [atoi32_decimal_end (Int.le_of_lt hport) hport', if_pos hport,
    atoi32_decimal_end hstream hstream', fitField, List.take_of_length_le hip,
    List.take_of_length_le hkind, List.take_of_length_le haddress, List.take_of_length_le hmodel]
  rfl

/-- The lines of an answer are those of slots. -/
def OfSlots (cfg : Config) (lines : List DeviceLine) : Prop :=
  ∀ line ∈ lines, ∃ (i : Nat) (slot : Slot), i < maxSlots ∧ slot.Listable cfg i ∧ line = slot.line

theorem ofSlots_deviceLines {t : Thread} (h : Listed cfg t) :
    OfSlots cfg (deviceLines t.tables) := by
  intro line hline
  obtain ⟨i, slot, hs, rfl⟩ := mem_deviceLines hline
  have hlt : i < t.tables.slots.length := (List.getElem?_eq_some_iff.mp hs).1
  exact ⟨i, slot, Nat.lt_of_lt_of_le hlt h.room, h.slot i slot hs, rfl⟩

variable {lines : List DeviceLine}

theorem answer_mem (h : OfSlots cfg lines) {line : CString}
    (hline : line ∈ "RCAGENT 1".toList :: lines.map body) {c : Char} (hc : c ∈ line) :
    c ≠ '\n' ∧ c ≠ '\x00' := by
  rcases List.mem_cons.mp hline with rfl | hline
  · revert c
    simp
  · obtain ⟨l, hl, rfl⟩ := List.mem_map.mp hline
    obtain ⟨i, slot, -, hslot, rfl⟩ := h l hl
    exact body_mem hslot hc

theorem answer_text (lines : List DeviceLine) : banner ++ lines.flatMap DeviceLine.text =
    ("RCAGENT 1".toList :: lines.map body).flatMap fun line => line ++ ['\n'] := by
  rw [List.flatMap_cons, List.flatMap_map]
  congr 1
  exact congrArg (List.flatMap · lines) (funext text_eq)

theorem answer_split (h : OfSlots cfg lines) :
    (banner ++ lines.flatMap DeviceLine.text).splitOn '\n' =
      "RCAGENT 1".toList :: (lines.map body ++ [[]]) := by
  rw [answer_text]
  exact splitOn_lines fun line hline hmem => (answer_mem h hline hmem).1 rfl

theorem answer_nul (h : OfSlots cfg lines) :
    ∀ c ∈ banner ++ lines.flatMap DeviceLine.text, c ≠ '\x00' := by
  rw [answer_text]
  intro c hc
  obtain ⟨line, hline, hc⟩ := List.mem_flatMap.mp hc
  rcases List.mem_append.mp hc with hc | hc
  · exact (answer_mem h hline hc).2
  · obtain rfl := List.mem_singleton.mp hc
    decide

/-- The whole answer is read back. -/
theorem parseAnswer_lines (hbase : cfg.adbBase = defaultAdbBase) (h : OfSlots cfg lines)
    {ip : CString} (hip : ip.length ≤ 63) (port : Int) :
    parseAnswer ip port (banner ++ lines.flatMap DeviceLine.text) =
      .ok (lines.map (scanned ip)) := by
  have hne : banner ++ lines.flatMap DeviceLine.text ≠ [] :=
    List.append_ne_nil_of_left_ne_nil (by decide) _
  have hsplit : strsplit '\n' (banner ++ lines.flatMap DeviceLine.text) =
      "RCAGENT 1".toList :: (lines.map body ++ [[]]) := by
    rw [strsplit_eq (answer_nul h) hne, answer_split h]
  have hfilter : (lines.map body ++ [[]]).filter (· ≠ []) = lines.map body := by
    rw [List.filter_append, List.filter_eq_self.mpr]
    · simp
    · intro line hline
      obtain ⟨l, -, rfl⟩ := List.mem_map.mp hline
      simpa using body_ne_nil l
  have hparse : (lines.map body).filterMap (parseDevLine ip) = lines.map (scanned ip) := by
    rw [List.filterMap_map, ← List.filterMap_eq_map]
    refine List.filterMap_congr fun line hline => ?_
    obtain ⟨i, slot, hi, hslot, rfl⟩ := h line hline
    exact parseDevLine_body hbase hi hslot hip
  have hversion : atoi32 ("RCAGENT 1".toList.drop 8) = rcAgentProtocolVersion := by decide
  have hprefix : "RCAGENT ".toList.isPrefixOf "RCAGENT 1".toList = true := by decide
  simp only [parseAnswer, hsplit, hprefix, hversion, hfilter, hparse]
  rfl

/-- **What the agent lists is what a client gets.** With the default `--adb-base`, in
every run of the rescan thread over devices as adb lists them, at every point: the
answer is the banner and a line for each slot that is present and ready, and the buffer
holds it; and a client that reads it, in whatever pieces, gets exactly these devices, in
the order of the slots, with the ports, kind and model of the slot, under its own
address. -/
theorem discovery_round_trip (hbase : cfg.adbBase = defaultAdbBase) {as : List ThreadAct}
    (has : ∀ a ∈ as, a.Plain) {t : Thread}
    (h : (threadLts cfg).run (threadLts cfg).init as = some t) {ip : CString}
    (hip : ip.length ≤ 63) (port : Int) {peer : Timeline Char}
    (hpeer : outcome 3000 peer = (discoveryWrite t.tables, .closed)) :
    discoveryWrite t.tables = banner ++ (deviceLines t.tables).flatMap DeviceLine.text ∧
      (discoveryWrite t.tables).length < 4096 ∧
      agentScan ip port (some peer) = .ok ((deviceLines t.tables).map (scanned ip)) := by
  have hlisted := listed_run has h
  obtain ⟨hwrite, hlen⟩ := discoveryWrite_eq hlisted hbase
  refine ⟨hwrite, hwrite ▸ hlen, ?_⟩
  have hbanner : banner ≠ [] := by decide
  have hne : discoveryWrite t.tables ≠ [] :=
    hwrite ▸ List.append_ne_nil_of_left_ne_nil hbanner _
  have hroom : (discoveryWrite t.tables).length < 65535 := by
    rw [hwrite]
    exact Nat.lt_trans hlen (by decide)
  rw [agentScan_closed hpeer hne hroom, hwrite]
  exact parseAnswer_lines hbase (ofSlots_deviceLines hlisted) hip port

/-- What adb prints for a phone on the network. -/
def phoneOutput : CString :=
  "List of devices attached\n10.0.0.2:5555  device product:p model:Pixel_7 device:d\n".toList

def phoneRun : List ThreadAct :=
  .start [true] :: .rescan (listDevices 64 (some phoneOutput)) (List.replicate 9 true) ::
    List.replicate 19 .step

/-- A peer that sends a text in two pieces, with a signal between them, and closes. -/
def twoPieces (text : CString) : Timeline Char :=
  [(5, .bytes (text.take 7)), (20, .interrupt), (0, .bytes (text.drop 7)), (1, .close)]

theorem discovery_round_trip_phone : ∃ t,
    (threadLts (.default [])).run (threadLts (.default [])).init phoneRun = some t ∧
      (deviceLines t.tables).length = 1 ∧
      agentScan "10.0.0.9".toList 8888 (some (twoPieces (discoveryWrite t.tables))) =
        .ok ((deviceLines t.tables).map (scanned "10.0.0.9".toList)) := by
  refine ⟨_, rfl, by decide, ?_⟩
  exact (@discovery_round_trip (.default []) rfl phoneRun (by decide) _ rfl "10.0.0.9".toList
    (by decide) 8888 _ (by decide)).2.2

end RigControl.Wire
