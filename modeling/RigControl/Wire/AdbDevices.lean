import RigControl.Gtk.Scanning
import RigControl.Lib.Words
import RigControl.Wire.Scans

/-!
# What adb lists

`adb devices -l` has three readers: `list_devices` of the agent, `list_adb_devices` of
`chooser.c` and `listDevices` of `AdbTools.swift`. The agent takes the output apart at
its line ends, GTK reads lines of at most 511 bytes and leaves out the first, Swift
splits at the Characters that are line ends and leaves out the first line too.
`adb_lists_alike` says that what adb prints, they read alike.
-/

namespace RigControl.Wire

open RigControl.Lib RigControl.Agent
open RigControl.Gtk (fgets fgetsAll listAdbDevices)
open RigControl.Swift (SwiftText)

/-! ## `AdbTools.swift` -/

structure AdbDevice where
  serial : CString
  model : CString
  deriving DecidableEq, Repr

/-- A line end is a Character of its own, unless it is behind a carriage return. -/
structure LineText extends SwiftText where
  characters_line : ∀ cs : CString, (∀ c ∈ cs, c = '\n' ∨ (32 ≤ c.toNat ∧ c.toNat < 127)) →
    characters cs = cs.map ([·])

def isBlank (c : CString) : Bool := c = [' '] || c = ['\t']

def LineText.adbDevice (T : LineText) (line : List CString) : Option AdbDevice :=
  match wordsBy isBlank line with
  | serial :: state :: _ =>
    if state.flatten = "device".toList then
      let rest := after (T.characters "model:".toList) line
      some ⟨serial.flatten, (rest.elim [] fun rest => rest.takeWhile fun c => !isBlank c).flatten⟩
    else none
  | _ => none

/-- `listDevices`; what is no UTF-8 is no output. -/
def LineText.listDevices (T : LineText) (out : Option CString) : List AdbDevice :=
  match out with
  | none => []
  | some out =>
    let lines := wordsBy (fun c => c = ['\n']) (T.characters ((T.decode out).getD []))
    (lines.drop 1).filterMap T.adbDevice

/-! ## The output -/

/-- A line of `adb devices -l`: the serial, padded, the state, and what is known of the
device, in which the model may be. -/
structure DeviceRow where
  serial : CString
  state : CString
  info : CString
  /-- The model, and what is behind it. -/
  tail : Option (CString × CString)
  deriving DecidableEq, Repr

namespace DeviceRow

/-- `%-22s %s`. -/
def head (r : DeviceRow) : CString :=
  r.serial ++ (List.replicate (22 - r.serial.length) ' ' ++ ' ' :: (r.state ++ r.info))

def text (r : DeviceRow) : CString :=
  r.head ++ r.tail.elim [] fun t => ' ' :: ("model:".toList ++ (t.1 ++ t.2))

def model (r : DeviceRow) : CString := r.tail.elim [] (·.1)

/-- The readers have room for it, and the model is the first thing that is called so. -/
structure Fits (r : DeviceRow) : Prop where
  printable : ∀ c ∈ r.text, 32 ≤ c.toNat ∧ c.toNat < 127
  short : r.text.length ≤ 510
  serial : r.serial ≠ [] ∧ ' ' ∉ r.serial ∧ r.serial.length ≤ 127
  state : r.state ≠ [] ∧ ' ' ∉ r.state ∧ r.state.length ≤ 63
  info : WordEnd (· = ' ') r.info
  noModel : ¬"model:".toList <:+: r.head
  model : ∀ t ∈ r.tail, t.1 ≠ [] ∧ ' ' ∉ t.1 ∧ t.1.length ≤ 95 ∧ WordEnd (· = ' ') t.2

end DeviceRow

/-- Before the devices; the daemon may have to start first. -/
def adbHeaders : List (List CString) :=
  [["List of devices attached".toList],
    ["* daemon not running; starting now at tcp:5037".toList,
      "* daemon started successfully".toList, "List of devices attached".toList]]

/-- Behind the last device there is an empty line. -/
def adbOutput (header : List CString) (rows : List DeviceRow) : CString :=
  (header ++ rows.map DeviceRow.text ++ [[]]).flatMap fun line => line ++ ['\n']

/-- The devices in the state `device`. -/
def adbListed (rows : List DeviceRow) : List AdbDevice :=
  (rows.filter fun r => r.state = "device".toList).map fun r => ⟨r.serial, r.model⟩

/-! ## A line -/

variable {r : DeviceRow}

/-- The characters of a text, one by one: there is no need to go through all that are. -/
theorem printable_of_all {cs : CString}
    (h : (cs.all fun c => decide (32 ≤ c.toNat ∧ c.toNat < 127)) = true) :
    ∀ c ∈ cs, 32 ≤ c.toNat ∧ c.toNat < 127 :=
  fun c hc => of_decide_eq_true (List.all_eq_true.mp h c hc)

theorem isSpace_printable {c : Char} (hc : 32 ≤ c.toNat) (hne : c ≠ ' ') : isSpace c = false := by
  rw [isSpace, Bool.or_eq_false_iff, Bool.and_eq_false_iff, decide_eq_false_iff_not,
    decide_eq_false_iff_not, decide_eq_false_iff_not]
  exact ⟨hne, .inr (by omega)⟩

namespace DeviceRow

def gap (r : DeviceRow) : CString := List.replicate (22 - r.serial.length) ' ' ++ [' ']

/-- What is behind the state. -/
def more (r : DeviceRow) : CString :=
  r.info ++ r.tail.elim [] fun t => ' ' :: ("model:".toList ++ (t.1 ++ t.2))

theorem text_eq (r : DeviceRow) : r.text = r.serial ++ (r.gap ++ (r.state ++ r.more)) := by
  simp only [text, head, gap, more, List.append_assoc, List.cons_append, List.nil_append]

theorem gap_blank (r : DeviceRow) : ∀ c ∈ r.gap, c = ' ' := by
  intro c hc
  rcases List.mem_append.mp hc with hc | hc
  · exact List.eq_of_mem_replicate hc
  · exact List.mem_singleton.mp hc

theorem gap_ne (r : DeviceRow) : r.gap ≠ [] := by
  unfold gap
  simp

theorem more_wordEnd (h : r.Fits) : WordEnd (· = ' ') r.more := by
  cases hinfo : r.info with
  | cons c info =>
    have hc := h.info
    rw [hinfo] at hc
    have hblank := wordEnd_cons.mp hc
    rw [more, hinfo]
    exact wordEnd_cons.mpr hblank
  | nil =>
    rw [more, hinfo, List.nil_append]
    cases r.tail with
    | none => exact wordEnd_nil
    | some t => exact wordEnd_cons.mpr (decide_eq_true rfl)

theorem Fits.mem_serial (h : r.Fits) : ∀ c ∈ r.serial, isSpace c = false := fun c hc =>
  isSpace_printable (h.printable c (by rw [text_eq]; exact List.mem_append_left _ hc)).1
    fun heq => h.serial.2.1 (heq ▸ hc)

theorem Fits.mem_state (h : r.Fits) : ∀ c ∈ r.state, isSpace c = false := fun c hc =>
  isSpace_printable
    (h.printable c (by simp only [text_eq, List.mem_append]; exact .inr (.inr (.inl hc)))).1
    fun heq => h.state.2.1 (heq ▸ hc)

theorem Fits.mem_model (h : r.Fits) {t : CString × CString} (ht : r.tail = some t) :
    ∀ c ∈ t.1, isSpace c = false := fun c hc =>
  isSpace_printable
    (h.printable c (by
      simp only [text, ht, Option.elim_some, List.mem_append, List.mem_cons]
      exact .inr (.inr (.inr (.inl hc))))).1
    fun heq => (h.model t ht).2.1 (heq ▸ hc)

end DeviceRow

open DeviceRow

theorem word_append {w rest : CString} (hw : ∀ c ∈ w, isSpace c = false) (hne : w ≠ [])
    (hrest : WordEnd isSpace rest) : word (w ++ rest) = w := by
  rw [word, dropWhile_word hw hne]
  exact takeWhile_word hw hrest

theorem wordEnd_space {rest : CString} (h : WordEnd (· = ' ') rest) : WordEnd isSpace rest := by
  intro c hc
  have heq : c = ' ' := of_decide_eq_true (h c hc)
  rw [heq]
  rfl

theorem wordEnd_append_of {rest e : CString} (hrest : WordEnd (· = ' ') rest)
    (he : WordEnd isSpace e) : WordEnd isSpace (rest ++ e) := by
  cases rest with
  | nil => exact he
  | cons c rest => exact wordEnd_cons.mpr (wordEnd_cons.mp (wordEnd_space hrest))

theorem serialAndState_text (h : r.Fits) {e : CString} (he : WordEnd isSpace e) :
    serialAndState (r.text ++ e) = some (r.serial, r.state) := by
  have hgap : ∀ c ∈ r.gap, isSpace c = true := fun c hc => by rw [gap_blank r c hc]; rfl
  have hmore : WordEnd isSpace (r.more ++ e) := wordEnd_append_of (more_wordEnd h) he
  have hstate : WordEnd isSpace (r.gap ++ (r.state ++ (r.more ++ e))) := wordEnd_gap hgap r.gap_ne
  have hword : word (r.gap ++ (r.state ++ (r.more ++ e))) = r.state := by
    rw [word, dropWhile_gap hgap, dropWhile_word h.mem_state h.state.1]
    exact takeWhile_word h.mem_state hmore
  rw [r.text_eq, List.append_assoc, List.append_assoc, List.append_assoc, serialAndState,
    word_append h.mem_serial h.serial.1 hstate, dropWhile_word h.mem_serial h.serial.1]
  simp only [List.take_of_length_le h.serial.2.2, List.drop_left, hword,
    List.take_of_length_le h.state.2.2, h.serial.1, h.state.1, or_self, if_false]

theorem modelOf_text (h : r.Fits) {e : CString} (he : e = [] ∨ e = ['\n']) :
    modelOf (r.text ++ e) = r.model := by
  have hends : WordEnd isSpace e := by
    rcases he with rfl | rfl
    · exact wordEnd_nil
    · exact wordEnd_cons.mpr rfl
  rw [modelOf]
  cases ht : r.tail with
  | none =>
    have hnone : ¬"model:".toList <:+: r.head ++ e := by
      rcases he with rfl | rfl
      · rw [List.append_nil]
        exact h.noModel
      · exact fun hin => h.noModel (infix_before (by decide) (by decide) hin)
    rw [text, ht, Option.elim_none, List.append_nil, after_none hnone, model, ht]
    rfl
  | some t =>
    obtain ⟨hne, -, hlen, hrest⟩ := h.model t ht
    have htext : r.text ++ e = r.head ++ ' ' :: ("model:".toList ++ (t.1 ++ (t.2 ++ e))) := by
      rw [text, ht, Option.elim_some, List.append_assoc, List.cons_append, List.append_assoc,
        List.append_assoc]
    rw [htext, after_eq (by decide) (by decide) h.noModel, model, ht]
    show (word (t.1 ++ (t.2 ++ e))).take 95 = t.1
    rw [word_append (h.mem_model ht) hne (wordEnd_append_of hrest hends),
      List.take_of_length_le hlen]

/-- What its line says of a device. -/
def DeviceRow.device (r : DeviceRow) : Option AdbDevice :=
  if r.state = "device".toList then some ⟨r.serial, r.model⟩ else none

def adbDeviceOf (d : Dev) : AdbDevice := ⟨d.serial, d.model⟩

theorem listedDev_text (h : r.Fits) {e : CString} (he : e = [] ∨ e = ['\n']) :
    (listedDev (r.text ++ e)).map adbDeviceOf = r.device := by
  have hends : WordEnd isSpace e := by
    rcases he with rfl | rfl
    · exact wordEnd_nil
    · exact wordEnd_cons.mpr rfl
  have hmodel : (r.model).length ≤ 95 := by
    rw [model]
    cases ht : r.tail with
    | none => exact Nat.zero_le _
    | some t => exact (h.model t ht).2.2.1
  unfold listedDev DeviceRow.device
  rw [serialAndState_text h hends]
  by_cases hs : r.state = "device".toList
  · simp only [if_pos hs, Option.map_some, adbDeviceOf, modelOf_text h he,
      List.take_of_length_le h.serial.2.2, List.take_of_length_le hmodel]
  · simp only [if_neg hs, Option.map_none]

/-! ## The lines -/

section

variable {header : List CString} {rows : List DeviceRow}

def adbLines (header : List CString) (rows : List DeviceRow) : List CString :=
  header ++ rows.map DeviceRow.text ++ [[]]

theorem adbListed_eq (rows : List DeviceRow) :
    adbListed rows = rows.filterMap DeviceRow.device := by
  rw [adbListed, ← List.filterMap_eq_map, List.filterMap_filter]
  refine List.filterMap_congr fun r _ => ?_
  rw [DeviceRow.device]
  generalize "device".toList = ready
  by_cases hs : r.state = ready <;> simp [hs]

/-- A reader that finds the device in a line of it and none elsewhere. -/
theorem lines_listed {f : CString → Option AdbDevice} (hheader : ∀ line ∈ header, f line = none)
    (hrows : ∀ r ∈ rows, f r.text = r.device) (hend : f [] = none) :
    (adbLines header rows).filterMap f = adbListed rows := by
  rw [adbLines, List.filterMap_append, List.filterMap_append,
    List.filterMap_eq_nil_iff.mpr hheader, List.filterMap_map, List.filterMap_cons, hend,
    adbListed_eq, List.nil_append, List.filterMap_nil, List.append_nil]
  exact List.filterMap_congr hrows

/-- Printable, and there is room for them. -/
theorem adbLines_mem (hheader : header ∈ adbHeaders) (hrows : ∀ r ∈ rows, r.Fits)
    {line : CString} (hl : line ∈ adbLines header rows) :
    (∀ c ∈ line, 32 ≤ c.toNat ∧ c.toNat < 127) ∧ line.length ≤ 510 := by
  rw [adbLines, List.mem_append, List.mem_append, List.mem_singleton, List.mem_map] at hl
  rcases hl with (hl | ⟨r, hr, rfl⟩) | rfl
  · have hall : ∀ header ∈ adbHeaders, ∀ line ∈ header,
        (line.all fun c => decide (32 ≤ c.toNat ∧ c.toNat < 127)) = true ∧
          line.length ≤ 510 := by
      decide +kernel
    obtain ⟨hprintable, hshort⟩ := hall header hheader line hl
    exact ⟨printable_of_all hprintable, hshort⟩
  · exact ⟨(hrows r hr).printable, (hrows r hr).short⟩
  · exact ⟨nofun, Nat.zero_le _⟩

theorem printable_ne {c : Char} (hc : 32 ≤ c.toNat ∧ c.toNat < 127) {d : Char} (hd : d.toNat < 32) :
    c ≠ d := by
  rintro rfl
  omega

theorem adbOutput_mem (hheader : header ∈ adbHeaders) (hrows : ∀ r ∈ rows, r.Fits) {c : Char}
    (hc : c ∈ adbOutput header rows) : c = '\n' ∨ (32 ≤ c.toNat ∧ c.toNat < 127) := by
  obtain ⟨line, hl, hc⟩ := List.mem_flatMap.mp hc
  rcases List.mem_append.mp hc with hc | hc
  · exact .inr ((adbLines_mem hheader hrows hl).1 c hc)
  · exact .inl (List.mem_singleton.mp hc)

/-- The first line that Swift leaves out is the one that GTK leaves out. -/
theorem header_cons (hheader : header ∈ adbHeaders) :
    ∃ first others, header = first :: others ∧ (!first.isEmpty) = true := by
  rcases List.mem_cons.mp hheader with rfl | hheader
  · exact ⟨_, _, rfl, rfl⟩
  · rw [List.mem_singleton.mp hheader]
    exact ⟨_, _, rfl, rfl⟩

/-- No reader has a device from an empty line. -/
theorem filterMap_nonempty {α : Type} {f : List α → Option AdbDevice} (hf : f [] = none)
    (lines : List (List α)) :
    (lines.filter fun line => !line.isEmpty).filterMap f = lines.filterMap f := by
  rw [List.filterMap_filter]
  refine List.filterMap_congr fun line _ => ?_
  cases line with
  | nil => exact hf.symm
  | cons c line => rfl

/-! ### The agent -/

theorem listDevices_output (hheader : header ∈ adbHeaders) (hrows : ∀ r ∈ rows, r.Fits)
    (hlen : (adbOutput header rows).length ≤ 16383) (cap : Nat) :
    (listDevices cap (some (adbOutput header rows))).map (·.map adbDeviceOf) =
      some ((adbListed rows).take cap) := by
  have hnul : ∀ c ∈ adbOutput header rows, decide (c ≠ '\x00') = true := fun c hc => by
    rcases adbOutput_mem hheader hrows hc with rfl | hp
    · rfl
    · exact decide_eq_true (printable_ne hp (by decide))
  have htokens : tokens (adbOutput header rows) =
      (adbLines header rows).filter fun line => !line.isEmpty := by
    have hlines : wordsBy (· == '\n') (adbOutput header rows) =
        (adbLines header rows).filter fun line => !line.isEmpty :=
      wordsBy_lines rfl fun line hl c hc => by
        rw [beq_eq_false_iff_ne]
        exact printable_ne ((adbLines_mem hheader hrows hl).1 c hc) (by decide)
    rw [tokens, List.takeWhile_eq_self_iff.mpr hnul]
    have hsplit : ∀ parts : List CString,
        parts.filter (· ≠ []) = parts.filter fun line => !line.isEmpty := fun parts =>
      List.filter_congr fun line _ => by cases line <;> rfl
    rw [hsplit]
    exact hlines
  have hlisted : (adbLines header rows).filterMap (fun line => (listedDev line).map adbDeviceOf) =
      adbListed rows := by
    refine lines_listed (fun line hl => ?_) (fun r hr => ?_) rfl
    · have hall : ∀ header ∈ adbHeaders, ∀ line ∈ header,
          (listedDev line).map adbDeviceOf = none := by decide +kernel
      exact hall header hheader line hl
    · have htext := listedDev_text (hrows r hr) (.inl rfl)
      rwa [List.append_nil] at htext
  rw [listDevices, Option.map_some, Option.map_some, List.take_of_length_le hlen, List.map_take,
    htokens, List.map_filterMap, filterMap_nonempty rfl, hlisted]

/-! ### GTK -/

theorem fgets_line {n : Nat} {line rest : CString} (hline : '\n' ∉ line) (hlen : line.length < n) :
    fgets n (line ++ '\n' :: rest) = (line ++ ['\n'], rest) := by
  induction line generalizing n with
  | nil =>
    obtain ⟨n, rfl⟩ := Nat.exists_eq_succ_of_ne_zero (Nat.ne_of_gt hlen)
    simp [fgets]
  | cons c line ih =>
    obtain ⟨n, rfl⟩ := Nat.exists_eq_succ_of_ne_zero (Nat.ne_of_gt (Nat.zero_lt_of_lt hlen))
    have hc : c ≠ '\n' := fun heq => hline (heq ▸ List.mem_cons_self)
    have hrest := ih (fun hm => hline (List.mem_cons_of_mem c hm)) (Nat.lt_of_succ_lt_succ hlen)
    rw [List.cons_append, fgets, if_neg hc, hrest]
    rfl

theorem fgetsAll_lines {n : Nat} {lines : List CString}
    (h : ∀ line ∈ lines, '\n' ∉ line ∧ line.length < n) {turns : Nat}
    (hturns : lines.length ≤ turns) :
    fgetsAll n turns (lines.flatMap fun line => line ++ ['\n']) =
      lines.map fun line => line ++ ['\n'] := by
  induction lines generalizing turns with
  | nil => cases turns <;> rfl
  | cons line lines ih =>
    obtain ⟨turns, rfl⟩ := Nat.exists_eq_succ_of_ne_zero
      (Nat.ne_of_gt (Nat.lt_of_lt_of_le (Nat.succ_pos _) hturns))
    obtain ⟨hline, hlen⟩ := h line List.mem_cons_self
    have hrest := ih (fun l hl => h l (List.mem_cons_of_mem line hl))
      (Nat.le_of_succ_le_succ hturns)
    rw [List.flatMap_cons, List.append_assoc, List.singleton_append, fgetsAll,
      fgets_line hline hlen, hrest]
    · rfl
    · simp

theorem length_le_output (lines : List CString) :
    lines.length ≤ (lines.flatMap fun line => line ++ ['\n']).length := by
  induction lines with
  | nil => exact Nat.le_refl 0
  | cons line lines ih =>
    rw [List.flatMap_cons, List.length_append, List.length_append, List.length_cons]
    simp only [List.length_singleton]
    omega

theorem listAdbDevices_output (hheader : header ∈ adbHeaders) (hrows : ∀ r ∈ rows, r.Fits) :
    (listAdbDevices (some (adbOutput header rows))).map adbDeviceOf = adbListed rows := by
  have hmem := fun line (hl : line ∈ adbLines header rows) => adbLines_mem hheader hrows hl
  obtain ⟨first, others, rfl, -⟩ := header_cons hheader
  have hlines : fgetsAll 511 (adbOutput (first :: others) rows).length
      (adbOutput (first :: others) rows) =
        (adbLines (first :: others) rows).map fun line => line ++ ['\n'] :=
    fgetsAll_lines (fun line hl =>
      ⟨fun hn => printable_ne ((hmem line hl).1 _ hn) (by decide) rfl,
        Nat.lt_succ_of_le (hmem line hl).2⟩) (length_le_output _)
  rw [listAdbDevices, List.map_filterMap, hlines, ← List.map_drop, List.filterMap_map]
  show (adbLines others rows).filterMap _ = _
  refine lines_listed (fun line hl => ?_) (fun r hr => ?_) rfl
  · have hall : ∀ header ∈ adbHeaders, ∀ line ∈ header, (listedDev
        ((line ++ ['\n']).takeWhile (· ≠ '\x00'))).map adbDeviceOf = none := by decide +kernel
    exact hall _ hheader line (List.mem_cons_of_mem first hl)
  · have hnul : ∀ c ∈ r.text ++ ['\n'], decide (c ≠ '\x00') = true := fun c hc => by
      rcases List.mem_append.mp hc with hc | hc
      · exact decide_eq_true (printable_ne ((hrows r hr).printable c hc) (by decide))
      · rw [List.mem_singleton.mp hc]
        rfl
    show (listedDev ((r.text ++ ['\n']).takeWhile (· ≠ '\x00'))).map adbDeviceOf = r.device
    rw [List.takeWhile_eq_self_iff.mpr hnul]
    exact listedDev_text (hrows r hr) (.inr rfl)

/-! ### Swift -/

theorem utf8_ascii {cs : CString} (h : ∀ c ∈ cs, c.toNat < 128) : Swift.utf8 cs = cs := by
  induction cs with
  | nil => rfl
  | cons c cs ih =>
    have hc := h c List.mem_cons_self
    have hrest := ih fun d hd => h d (List.mem_cons_of_mem c hd)
    have hone : (String.utf8EncodeChar c).map (fun b => Char.ofNat b.toNat) = [c] := by
      unfold String.utf8EncodeChar
      rw [Char.toNat] at hc
      rw [if_pos (by omega), List.map_singleton, UInt8.toNat_ofNat',
        Nat.mod_eq_of_lt (by omega : c.val.toNat < 2 ^ 8)]
      exact congrArg (fun d => [d]) (Char.ofNat_toNat c)
    rw [Swift.utf8, List.flatMap_cons, hone]
    exact congrArg (c :: ·) hrest

theorem decode_ascii (T : SwiftText) {cs : CString} (h : ∀ c ∈ cs, c.toNat < 128) :
    T.decode cs = some cs := by
  have hdecode := T.decode_utf8 cs
  rw [utf8_ascii h] at hdecode
  refine hdecode fun hmark => ?_
  have hhigh : Char.ofNat 0xEF ∈ Swift.byteOrderMark := by decide +kernel
  exact absurd (h _ (hmark.subset hhigh)) (by decide)

theorem flatten_single (cs : CString) : (cs.map ([·])).flatten = cs := by
  rw [← List.flatMap_def]
  exact List.flatMap_singleton' cs

theorem isBlank_eq {c : Char} (hc : isSpace c = false) : isBlank [c] = false := by
  unfold isBlank
  rw [Bool.or_eq_false_iff, decide_eq_false_iff_not, decide_eq_false_iff_not]
  constructor <;> rintro ⟨⟩ <;> exact Bool.noConfusion hc

theorem word_single {w : CString} (hw : ∀ c ∈ w, isSpace c = false) :
    ∀ c ∈ w.map ([·]), isBlank c = false := by
  intro c hc
  obtain ⟨d, hd, rfl⟩ := List.mem_map.mp hc
  exact isBlank_eq (hw d hd)

theorem wordEnd_single {rest : CString} (h : WordEnd (· = ' ') rest) :
    WordEnd isBlank (rest.map ([·])) :=
  wordEnd_map (fun c hc => by rw [of_decide_eq_true hc]; rfl) h

theorem adbDevice_none (T : LineText) {line : List CString}
    (h : ((wordsBy isBlank line)[1]?).map List.flatten ≠ some "device".toList) :
    T.adbDevice line = none := by
  unfold LineText.adbDevice
  split
  case h_1 serial state rest heq =>
    rw [heq] at h
    exact if_neg fun hs => h (congrArg some hs)
  case h_2 => rfl

theorem adbDevice_text (T : LineText) (h : r.Fits) : T.adbDevice (r.text.map ([·])) = r.device := by
  have hkey : T.characters "model:".toList = "model:".toList.map ([·]) :=
    T.characters_ascii _ (printable_of_all (by decide +kernel))
  have hinj : ∀ a b : Char, [a] = [b] → a = b := fun a b => List.singleton_inj.mp
  have hgap : ∀ c ∈ r.gap.map ([·]), isBlank c = true := by
    intro c hc
    obtain ⟨d, hd, rfl⟩ := List.mem_map.mp hc
    rw [gap_blank r d hd]
    rfl
  have hwords : wordsBy isBlank (r.text.map ([·])) = r.serial.map ([·]) ::
      r.state.map ([·]) :: wordsBy isBlank (r.more.map ([·])) := by
    rw [r.text_eq, List.map_append, List.map_append, List.map_append,
      wordsBy_word (word_single h.mem_serial) (by simpa using h.serial.1)
        (wordEnd_gap hgap (by simpa using r.gap_ne)), wordsBy_gap hgap,
      wordsBy_word (word_single h.mem_state) (by simpa using h.state.1)
        (wordEnd_single (more_wordEnd h))]
  have hmodel : ((after (T.characters "model:".toList) (r.text.map ([·]))).elim [] fun rest =>
      rest.takeWhile fun c => !isBlank c).flatten = r.model := by
    have hhead : ¬"model:".toList.map ([·]) <:+: r.head.map ([·]) := fun hin =>
      h.noModel (infix_of_map hinj hin)
    rw [hkey, text, model]
    cases ht : r.tail with
    | none =>
      rw [Option.elim_none, List.append_nil, after_none hhead]
      rfl
    | some t =>
      obtain ⟨hne, -, hlen, hrest⟩ := h.model t ht
      rw [Option.elim_some, List.map_append, List.map_cons, List.map_append,
        after_eq (by decide) (by decide) hhead, Option.elim_some, List.map_append,
        takeWhile_word (word_single (h.mem_model ht)) (wordEnd_single hrest), flatten_single]
      rfl
  rw [LineText.adbDevice, hwords, device]
  simp only [flatten_single, hmodel]

theorem swift_output (T : LineText) (hheader : header ∈ adbHeaders) (hrows : ∀ r ∈ rows, r.Fits) :
    T.listDevices (some (adbOutput header rows)) = adbListed rows := by
  have hmem := fun line (hl : line ∈ adbLines header rows) => adbLines_mem hheader hrows hl
  obtain ⟨first, others, rfl, hfirst⟩ := header_cons hheader
  have hdecode : (T.decode (adbOutput (first :: others) rows)).getD [] =
      adbOutput (first :: others) rows := by
    rw [decode_ascii T.toSwiftText fun c hc => ?_]
    · rfl
    · rcases adbOutput_mem hheader hrows hc with rfl | hp
      · decide
      · omega
  have hcharacters : T.characters (adbOutput (first :: others) rows) =
      ((adbLines (first :: others) rows).map (·.map ([·]))).flatMap fun line =>
        line ++ [['\n']] := by
    rw [T.characters_line _ fun c hc => adbOutput_mem hheader hrows hc, adbOutput,
      List.map_flatMap, List.flatMap_map]
    exact List.flatMap_congr fun line _ => List.map_append
  have hlines : wordsBy (fun c => c = ['\n']) (T.characters (adbOutput (first :: others) rows)) =
      ((adbLines (first :: others) rows).filter fun line => !line.isEmpty).map (·.map ([·])) := by
    have hends : ∀ line ∈ (adbLines (first :: others) rows).map (·.map ([·])), ∀ c ∈ line,
        decide (c = ['\n']) = false := by
      intro line hl c hc
      obtain ⟨plain, hplain, rfl⟩ := List.mem_map.mp hl
      obtain ⟨d, hd, rfl⟩ := List.mem_map.mp hc
      refine decide_eq_false fun heq => ?_
      exact printable_ne ((hmem plain hplain).1 d hd) (by decide) (List.singleton_inj.mp heq)
    have hsplit : wordsBy (fun c => decide (c = ['\n']))
        (((adbLines (first :: others) rows).map (·.map ([·]))).flatMap fun line =>
          line ++ [['\n']]) =
          ((adbLines (first :: others) rows).map (·.map ([·]))).filter fun line => !line.isEmpty :=
      wordsBy_lines rfl hends
    rw [hcharacters, hsplit, List.filter_map]
    exact congrArg _ (List.filter_congr fun line _ => by cases line <;> rfl)
  have hheads : ∀ header ∈ adbHeaders, ∀ line ∈ header, T.adbDevice (line.map ([·])) = none := by
    have hstate : ∀ header ∈ adbHeaders, ∀ line ∈ header,
        ((wordsBy isBlank (line.map ([·])))[1]?).map List.flatten ≠ some "device".toList := by
      decide +kernel
    exact fun header hh line hl => adbDevice_none T (hstate header hh line hl)
  have hdrop : ((adbLines (first :: others) rows).filter fun line => !line.isEmpty).drop 1 =
      (adbLines others rows).filter fun line => !line.isEmpty := by
    rw [adbLines, List.cons_append, List.cons_append, List.filter_cons, if_pos hfirst]
    rfl
  show (((wordsBy (fun c => c = ['\n']) (T.characters ((T.decode
    (adbOutput (first :: others) rows)).getD []))).drop 1).filterMap T.adbDevice) = _
  rw [hdecode, hlines, ← List.map_drop, hdrop, List.filterMap_map, filterMap_nonempty rfl]
  exact lines_listed (fun line hl => hheads _ hheader line (List.mem_cons_of_mem first hl))
    (fun r hr => adbDevice_text T (hrows r hr)) rfl

/-- **The three readers list the same devices.** What `adb devices -l` prints, with the
daemon running or not and whatever the devices are, is the same list for the agent, GTK
and Swift: the serial and the model of every device that is ready, in the order of adb. -/
theorem adb_lists_alike (T : LineText) (hheader : header ∈ adbHeaders) (hrows : ∀ r ∈ rows, r.Fits)
    (hlen : (adbOutput header rows).length ≤ 16383) (cap : Nat) :
    (listDevices cap (some (adbOutput header rows))).map (·.map adbDeviceOf) =
        some ((adbListed rows).take cap) ∧
      (listAdbDevices (some (adbOutput header rows))).map adbDeviceOf = adbListed rows ∧
      T.listDevices (some (adbOutput header rows)) = adbListed rows :=
  ⟨listDevices_output hheader hrows hlen cap, listAdbDevices_output hheader hrows,
    swift_output T hheader hrows⟩

end

def asciiLines : LineText where
  toSwiftText := asciiText
  characters_line _ _ := rfl

def pixel : DeviceRow :=
  ⟨"1A051FDEE0006F".toList, "device".toList, " usb:1-2 product:oriole".toList,
    some ("Pixel_6".toList, " device:oriole transport_id:3".toList)⟩

def unauthorized : DeviceRow :=
  ⟨"R58M123ABC".toList, "unauthorized".toList, " usb:1-4 transport_id:7".toList, none⟩

def wireless : DeviceRow :=
  ⟨"192.168.1.20:5555".toList, "device".toList, " product:oriole".toList,
    some ("Pixel_6".toList, " device:oriole transport_id:4".toList)⟩

theorem adb_lists_alike_three :
    (listDevices maxSlots (some (adbOutput ["List of devices attached".toList]
        [pixel, unauthorized, wireless]))).map (·.map adbDeviceOf) =
      some ((adbListed [pixel, unauthorized, wireless]).take maxSlots) := by
  have hfits : ∀ r ∈ [pixel, unauthorized, wireless], r.Fits := by
    refine List.forall_mem_cons.mpr ⟨?_, List.forall_mem_cons.mpr
      ⟨?_, List.forall_mem_singleton.mpr ?_⟩⟩
    all_goals
      constructor
      case printable => exact printable_of_all (by decide +kernel)
      all_goals decide +kernel
  exact (adb_lists_alike asciiLines (by decide +kernel) hfits (by decide +kernel) maxSlots).1

end RigControl.Wire
