import RigControl.Wire.Scans

/-!
# The grammar of an answer

The discovery protocol says what an answer is: a banner with the version, and lines of
at least five fields of which the first and the fifth are numbers. `agent_scan` tests a
prefix and takes the numbers by `atoi`, which reads `1abc` and 4294967297 as 1 and knows no
bound for a port. `PlainAnswer` names the bytes that it misreads, and `scan_grammar_iff`
says that it reads what the grammar says of all others, and of no others.
-/

namespace RigControl.Wire

open RigControl.Lib RigControl.Gtk

/-- `RCAGENT 1`, by the protocol. -/
def GoodBanner (banner : CString) : Prop :=
  "RCAGENT ".toList <+: banner ∧ numeral (banner.drop 8) = some 1

instance (banner : CString) : Decidable (GoodBanner banner) := inferInstanceAs (Decidable (_ ∧ _))

/-- A device line of the protocol; a `stream_base` is kept as an `int`. -/
def readLine (ip line : CString) : Option ScannedDev :=
  match line.splitOn '\t' with
  | portText :: kind :: _ :: model :: baseText :: _ =>
    match numeral portText, numeral baseText with
    | some port, some base =>
      if 1 ≤ port ∧ port ≤ 65535 ∧ 0 ≤ base then
        some
          { host := fitField 64 ip
            serial := fitField 128 (address ip port)
            kind := fitField 16 kind
            model := fitField 96 model
            adbPort := port
            streamBase := toInt32 base }
      else none
    | _, _ => none
  | _ => none

/-- What the protocol makes of the bytes; `none` is a refusal. -/
def readAnswer (ip data : CString) : Option (List ScannedDev) :=
  if GoodBanner (bannerOf data) then some ((linesOf data).filterMap (readLine ip)) else none

/-! ## The bytes that `atoi` misreads -/

/-- Blanks or a plus in front, no digits, or something behind them. -/
def Loose (t : NumberText) : Prop :=
  t.blanks ≠ [] ∨ t.sign = some '+' ∨ t.digits = [] ∨ t.rest ≠ []

instance (t : NumberText) : Decidable (Loose t) := inferInstanceAs (Decidable (_ ∨ _ ∨ _ ∨ _))

/-- A number whose last 32 bits are those of 1, with something around it or more bits. -/
def MisreadVersion (t : NumberText) : Prop := t.Low 1 ∧ (Loose t ∨ t.value ≠ 1)

instance (t : NumberText) : Decidable (MisreadVersion t) := inferInstanceAs (Decidable (_ ∧ _))

/-- A number whose last 32 bits are a positive `int`, though there is something around it,
or it is no port, or the `stream_base` has something around it, no digits, or a minus. -/
def MisreadPort (port base : NumberText) : Prop :=
  port.LowPositive ∧
    (Loose port ∨ port.value < 1 ∨ 65535 < port.value ∨ Loose base ∨ base.value < 0)

instance (port base : NumberText) : Decidable (MisreadPort port base) :=
  inferInstanceAs (Decidable (_ ∧ _))

def PlainFields : List CString → Prop
  | port :: _ :: _ :: _ :: base :: _ => ¬MisreadPort (numberText port) (numberText base)
  | _ => True

instance : ∀ fields, Decidable (PlainFields fields)
  | _ :: _ :: _ :: _ :: _ :: _ => inferInstanceAs (Decidable (¬_))
  | [] | [_] | [_, _] | [_, _, _] | [_, _, _, _] => instDecidableTrue

/-- No line of five fields whose port is misread. -/
def PlainLine (line : CString) : Prop := PlainFields (line.splitOn '\t')

instance (line : CString) : Decidable (PlainLine line) :=
  inferInstanceAs (Decidable (PlainFields _))

/-- The version behind `RCAGENT ` is not misread, and neither is a line behind a version
that is 1. -/
def PlainAnswer (data : CString) : Prop :=
  let version := numberText ((bannerOf data).drop 8)
  "RCAGENT ".toList <+: bannerOf data → ¬MisreadVersion version ∧
    (¬Loose version ∧ version.value = 1 → ∀ line ∈ linesOf data, PlainLine line)

instance (data : CString) : Decidable (PlainAnswer data) :=
  inferInstanceAs (Decidable (_ → _ ∧ (_ → ∀ line ∈ linesOf data, _)))

/-! ## A number by the grammar -/

theorem not_loose_iff {t : NumberText} : ¬Loose t ↔ t.Whole ∧ t.sign ≠ some '+' := by
  simp only [Loose, NumberText.Whole, not_or, not_not, ne_eq]
  constructor
  · rintro ⟨hblanks, hplus, hdigits, hrest⟩
    exact ⟨⟨hblanks, hdigits, hrest⟩, hplus⟩
  · rintro ⟨⟨hblanks, hdigits, hrest⟩, hplus⟩
    exact ⟨hblanks, hplus, hdigits, hrest⟩

theorem numeral_eq_some_iff {text : CString} {n : Int} :
    numeral text = some n ↔ ¬Loose (numberText text) ∧ (numberText text).value = n := by
  rw [numeral_eq_some, not_loose_iff, and_assoc]

theorem atoi32_of_numeral {text : CString} {n : Int} (h : numeral text = some n) :
    atoi32 text = toInt32 n := by
  rw [atoi32, atoi_of_numeral h]

theorem atoi32_of_port {text : CString} {port : Int} (h : numeral text = some port)
    (hlo : 1 ≤ port) (hhi : port ≤ 65535) : atoi32 text = port := by
  rw [atoi32_of_numeral h]
  exact toInt32_eq (by omega) (by omega)

theorem gtkBanner_of_good {banner : CString} (h : GoodBanner banner) : gtkBanner banner :=
  ⟨h.1, (atoi32_of_numeral h.2).trans rfl⟩

theorem version_misread_iff {banner : CString} (hstart : "RCAGENT ".toList <+: banner) :
    ¬MisreadVersion (numberText (banner.drop 8)) ↔
      (gtkBanner banner → numeral (banner.drop 8) = some 1) := by
  rw [gtkBanner_iff, LooseBanner, numeral_eq_some_iff, MisreadVersion]
  simp only [hstart, true_and, not_and, not_or, ne_eq, not_not]

theorem plainAnswer_iff {data : CString} : PlainAnswer data ↔
    (gtkBanner (bannerOf data) → GoodBanner (bannerOf data)) ∧
      (GoodBanner (bannerOf data) → ∀ line ∈ linesOf data, PlainLine line) := by
  unfold PlainAnswer GoodBanner
  dsimp only
  rw [numeral_eq_some_iff]
  by_cases hstart : "RCAGENT ".toList <+: bannerOf data
  · have hmisread := version_misread_iff hstart
    rw [numeral_eq_some_iff] at hmisread
    rw [hmisread]
    simp only [hstart, true_and, forall_const]
  · simp only [hstart, false_and, false_imp_iff, and_true, true_iff]
    exact fun hgtk => hstart hgtk.1

/-- The fields of a line that is read, and of one that should be. -/
theorem plainFields_iff {port base : CString} :
    ¬MisreadPort (numberText port) (numberText base) ↔
      (0 < atoi32 port → (∃ n ∈ numeral port, 1 ≤ n ∧ n ≤ 65535) ∧ ∃ n ∈ numeral base, 0 ≤ n) := by
  have hport : (∃ n ∈ numeral port, 1 ≤ n ∧ n ≤ 65535) ↔ ¬Loose (numberText port) ∧
      1 ≤ (numberText port).value ∧ (numberText port).value ≤ 65535 := by
    simp only [Option.mem_def, numeral_eq_some_iff]
    constructor
    · rintro ⟨n, ⟨hloose, rfl⟩, hrange⟩
      exact ⟨hloose, hrange⟩
    · exact fun h => ⟨_, ⟨h.1, rfl⟩, h.2⟩
  have hbase : (∃ n ∈ numeral base, 0 ≤ n) ↔
      ¬Loose (numberText base) ∧ 0 ≤ (numberText base).value := by
    simp only [Option.mem_def, numeral_eq_some_iff]
    constructor
    · rintro ⟨n, ⟨hloose, rfl⟩, hpos⟩
      exact ⟨hloose, hpos⟩
    · exact fun h => ⟨_, ⟨h.1, rfl⟩, h.2⟩
  rw [hport, hbase, atoi32_pos_iff, MisreadPort]
  simp only [not_and, not_or, Int.not_lt, and_assoc]

/-- The protocol reads no line that the code leaves out. -/
theorem parseDevLine_of_readLine {ip line : CString} {dev : ScannedDev}
    (hnul : ∀ c ∈ line, c ≠ '\x00') (hne : line ≠ []) (h : readLine ip line = some dev) :
    Gtk.parseDevLine ip line = some dev := by
  unfold readLine at h
  unfold Gtk.parseDevLine
  rw [strsplit_eq hnul hne]
  split at h
  · rename_i portText kind serial model baseText rest heq
    split at h
    · rename_i port base hport hbase
      obtain ⟨⟨hlo, hhi, -⟩, h⟩ := Option.ite_none_right_eq_some.mp h
      rw [heq]
      dsimp only
      rw [atoi32_of_port hport hlo hhi, atoi32_of_numeral hbase, if_pos (by omega)]
      exact h
    · cases h
  · cases h

/-- Both read a line alike exactly when it is plain. -/
theorem readLine_iff {ip line : CString} (hnul : ∀ c ∈ line, c ≠ '\x00') (hne : line ≠ []) :
    Gtk.parseDevLine ip line = readLine ip line ↔ PlainLine line := by
  constructor
  · intro h
    unfold PlainLine PlainFields
    split
    · rename_i portText kind serial model baseText rest heq
      refine plainFields_iff.mpr fun hpos => ?_
      have hread : (readLine ip line).isSome := by
        rw [← h]
        unfold Gtk.parseDevLine
        rw [strsplit_eq hnul hne, heq]
        dsimp only
        rw [if_pos hpos]
        rfl
      unfold readLine at hread
      rw [heq] at hread
      dsimp only at hread
      split at hread
      · rename_i port base hport hbase
        split at hread
        · rename_i hrange
          exact ⟨⟨port, hport, hrange.1, hrange.2.1⟩, base, hbase, hrange.2.2⟩
        · cases hread
      · cases hread
    · trivial
  · intro h
    cases hread : readLine ip line with
    | some dev => exact parseDevLine_of_readLine hnul hne hread
    | none =>
      unfold Gtk.parseDevLine
      unfold readLine at hread
      unfold PlainLine at h
      rw [strsplit_eq hnul hne]
      generalize line.splitOn '\t' = fields at h hread ⊢
      rcases fields with _ | ⟨portText, _ | ⟨kind, _ | ⟨serial, _ | ⟨model, _ | ⟨baseText, rest⟩⟩⟩⟩⟩
      · rfl
      · rfl
      · rfl
      · rfl
      · rfl
      · dsimp only at hread ⊢
        refine if_neg fun hpos => ?_
        obtain ⟨⟨port, hport, hlo, hhi⟩, base, hbase, hnonneg⟩ := plainFields_iff.mp h hpos
        rw [Option.mem_def.mp hport, Option.mem_def.mp hbase] at hread
        dsimp only at hread
        rw [if_pos ⟨hlo, hhi, hnonneg⟩] at hread
        cases hread

theorem lines_plain_iff {ip : CString} {lines : List CString}
    (hnul : ∀ line ∈ lines, ∀ c ∈ line, c ≠ '\x00') :
    lines.filterMap (Gtk.parseDevLine ip) = lines.filterMap (readLine ip) ↔
      ∀ line ∈ lines, PlainLine line := by
  have hempty : ∀ line : CString, line = [] → Gtk.parseDevLine ip line = none ∧
      readLine ip line = none ∧ PlainLine line := by
    rintro line rfl
    exact ⟨rfl, rfl, trivial⟩
  rw [filterMap_eq_iff (fun _ => True) (fun _ _ _ _ => trivial)]
  · refine forall₂_congr fun line hline => ?_
    by_cases hne : line = []
    · obtain ⟨hcode, hread, hplain⟩ := hempty line hne
      simp [hcode, hread, hplain]
    · exact readLine_iff (hnul line hline) hne
  · intro line hline dev hdev _
    by_cases hne : line = []
    · rw [(hempty line hne).2.1] at hdev
      cases hdev
    · rw [parseDevLine_of_readLine (hnul line hline) hne hdev]
      rfl

/-- **A scan reads what the protocol says**, of the bytes that come before the agent
closes, exactly where `atoi` takes no text for a number that is none, and no number for a
port that is none. -/
theorem scan_grammar_iff (ip : CString) (port : Int) {peer : Timeline Char} {data : CString}
    (hpeer : outcome 3000 peer = (data, .closed)) (hnul : ∀ c ∈ data, c ≠ '\x00')
    (hlen : data.length ≤ 65534) :
    (agentScan ip port (some peer)).toOption = readAnswer ip data ↔ PlainAnswer data := by
  have hscan : (agentScan ip port (some peer)).toOption =
      if gtkBanner (bannerOf data) then some ((linesOf data).filterMap (Gtk.parseDevLine ip))
      else none := by
    by_cases hne : data = []
    · subst hne
      have hread : readToEof 65536 3000 peer = some [] := by
        rw [readToEof_eq (by simp [hpeer]), hpeer]
        rfl
      simp only [agentScan, hread]
      rfl
    · rw [agentScan_closed hpeer hne (by omega)]
      exact parseAnswer_eq ip port hnul hne
  have hlines : (linesOf data).filterMap (Gtk.parseDevLine ip) =
      (linesOf data).filterMap (readLine ip) ↔ ∀ line ∈ linesOf data, PlainLine line := by
    refine lines_plain_iff fun line hline c hc => hnul c ?_
    exact mem_of_mem_splitOn (List.mem_of_mem_tail hline) hc
  rw [hscan, readAnswer, plainAnswer_iff]
  by_cases hgtk : gtkBanner (bannerOf data)
  · rw [if_pos hgtk]
    by_cases hgood : GoodBanner (bannerOf data)
    · rw [if_pos hgood, Option.some.injEq, hlines]
      exact ⟨fun h => ⟨fun _ => hgood, fun _ => h⟩, fun h => h.2 hgood⟩
    · rw [if_neg hgood]
      exact iff_of_false (Option.some_ne_none _) fun h => hgood (h.1 hgtk)
  · have hbad : ¬GoodBanner (bannerOf data) := fun hgood => hgtk (gtkBanner_of_good hgood)
    rw [if_neg hgtk, if_neg hbad]
    exact ⟨fun _ => ⟨fun h => absurd h hgtk, fun h => absurd h hbad⟩, fun _ => rfl⟩

/-- A line with a field more, one with a field less, and one whose port is no number. -/
def mixedAnswer : Timeline Char :=
  [(3, .bytes "RCAGENT 1\n5001\tUSB\tS\tM\t0\tnew\n5002\tUSB\nx\tUSB\tS\tM\t0\n".toList),
    (2, .close)]

theorem scan_grammar_mixed :
    (agentScan "10.0.0.9".toList 8888 (some mixedAnswer)).toOption =
      readAnswer "10.0.0.9".toList (sent mixedAnswer) :=
  (scan_grammar_iff "10.0.0.9".toList 8888 rfl (by simp [sent, mixedAnswer]) (by decide)).mpr
    (by decide)

/-- The version is no number, and is taken for 1. -/
theorem scan_takes_1abc : ¬ ∀ (ip : CString) (port : Int) (peer : Timeline Char) (data : CString),
    outcome 3000 peer = (data, .closed) → (∀ c ∈ data, c ≠ '\x00') → data.length ≤ 65534 →
    (agentScan ip port (some peer)).toOption = readAnswer ip data := by
  intro hall
  have hread := hall "10.0.0.9".toList 8888 [(3, .bytes "RCAGENT 1abc\n".toList), (2, .close)] _ rfl
    (by simp) (by decide)
  revert hread
  decide

end RigControl.Wire
