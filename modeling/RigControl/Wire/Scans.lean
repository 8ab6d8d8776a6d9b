import RigControl.Lib.NumberText
import RigControl.Swift.AgentScan
import RigControl.Wire.Discovery

/-!
# One answer, two clients

`agent_scan` of the GTK client beside `AgentScan.scan` of the Swift one, at the same
stream. The two read numbers by different rules, cut long names or do not, and differ in
what they make of a peer that does not close; `ReadAlike` says by the bytes of an answer
exactly where they come to the same.
-/

namespace RigControl.Wire

open RigControl.Lib RigControl.Agent RigControl.Gtk RigControl.Swift

/-- What both clients keep of a device. -/
structure Entry where
  adbPort : Int
  kind : CString
  model : CString
  streamBase : Int
  deriving DecidableEq, Repr

def gtkEntry (d : ScannedDev) : Entry := ⟨d.adbPort, d.kind, d.model, d.streamBase⟩

def swiftEntry (d : Swift.AgentDev) : Entry := ⟨d.adbPort, d.kind, d.model, d.streamBase⟩

/-- The devices of a scan; `none` is any error. -/
def gtkScan (ip : CString) (port : Int) (peer : Timeline Char) : Option (List Entry) :=
  (agentScan ip port (some peer)).toOption.map fun devs => devs.map gtkEntry

def swiftScan (T : SwiftText) (ip : CString) (port : Int) (peer : Timeline Char) :
    Option (List Entry) :=
  (T.scan ip port (some peer)).toOption.map fun devs => devs.map swiftEntry

/-- What Swift knows of ASCII texts. -/
def asciiText : SwiftText where
  decode cs := some (if byteOrderMark.isPrefixOf cs then cs.drop 3 else cs)
  characters cs := cs.map ([·])
  isNumber c := c.all Char.isDigit
  decode_utf8 text h := by
    rw [if_neg (by simpa [← List.isPrefixOf_iff_prefix] using h)]
  characters_ascii _ _ := rfl
  isNumber_ascii c _ := by simp

/-! ## Where they agree -/

/-- The first line and the others. -/
def bannerOf (data : CString) : CString := ((data.splitOn '\n').head?).getD []

def linesOf (data : CString) : List CString := (data.splitOn '\n').tail

def gtkBanner (banner : CString) : Prop :=
  "RCAGENT ".toList <+: banner ∧ atoi32 (banner.drop 8) = Gtk.rcAgentProtocolVersion

def swiftBanner (T : SwiftText) (banner : CString) : Prop :=
  T.hasPrefix banner "RCAGENT ".toList = true ∧ T.version banner = Swift.rcAgentProtocolVersion

/-! ### By the bytes -/

/-- `RCAGENT `, and behind blanks or a sign, with anything behind it, a number whose last
32 bits are those of 1. -/
def LooseBanner (banner : CString) : Prop :=
  "RCAGENT ".toList <+: banner ∧ (numberText (banner.drop 8)).Low 1

/-- The number Characters behind the first eight. -/
def versionText (T : SwiftText) (banner : CString) : CString :=
  (((T.characters banner).drop 8).takeWhile T.isNumber).flatten

/-- The Characters of `RCAGENT `, and right behind them number Characters that are digits,
of value 1. -/
def StrictBanner (T : SwiftText) (banner : CString) : Prop :=
  T.characters "RCAGENT ".toList <+: T.characters banner ∧
    (numberText (versionText T banner)).Whole ∧ (numberText (versionText T banner)).value = 1

/-- Nothing but a number from 1 to 2^31 - 1. -/
def PlainPort (t : NumberText) : Prop := t.Whole ∧ 0 < t.value ∧ t.value < 2 ^ 31

/-- The last 32 bits of the number are no positive `int`; and something else is there too,
or the number is not positive, or has more than 63 bits. -/
def NoPort (t : NumberText) : Prop :=
  ¬t.LowPositive ∧ (¬t.Whole ∨ t.value ≤ 0 ∨ 2 ^ 63 ≤ t.value)

/-- Nothing but a number of 32 bits; or a number below those of 64 bits; or something else
is there too, and the last 32 bits of the number are 0. -/
def PlainBase (t : NumberText) : Prop :=
  (t.Whole ∧ -2 ^ 31 ≤ t.value ∧ t.value < 2 ^ 31) ∨ t.value < -2 ^ 63 ∨
    (¬t.Whole ∧ t.Low 0)

/-- Of five fields or more: no port, or a port, names that GTK does not cut, and a plain
`stream_base`. -/
def FieldsAlike (line : CString) : Prop :=
  match line.splitOn '\t' with
  | port :: kind :: _ :: model :: base :: _ =>
    NoPort (numberText port) ∨
      (PlainPort (numberText port) ∧ kind.length ≤ 15 ∧ model.length ≤ 95 ∧
        PlainBase (numberText base))
  | _ => True

/-- Reset or empty; or late, and no UTF-8 or no strict banner in front; or closed in time,
with a banner that is both loose and strict or neither, and lines whose fields are alike. -/
def ReadAlike (T : SwiftText) (peer : Timeline Char) : Prop :=
  let (data, ending) := outcome 3000 peer
  data = [] ∨
    match ending with
    | .reset => True
    | .late => ∀ text ∈ T.decode data, ¬ StrictBanner T (bannerOf text)
    | .closed =>
      (LooseBanner (bannerOf data) ↔ ∃ text ∈ T.decode data, StrictBanner T (bannerOf text)) ∧
        (LooseBanner (bannerOf data) → ∀ line ∈ linesOf data, FieldsAlike line)

instance (banner : CString) : Decidable (gtkBanner banner) := inferInstanceAs (Decidable (_ ∧ _))

instance (T : SwiftText) (banner : CString) : Decidable (swiftBanner T banner) :=
  inferInstanceAs (Decidable (_ ∧ _))

/-! ### What they are to the readers -/

theorem gtkBanner_iff {banner : CString} : gtkBanner banner ↔ LooseBanner banner :=
  and_congr_right fun _ => atoi32_eq_one_iff

theorem int_eq_some_iff {text : CString} {n : Int} : int text = some n ↔
    (numberText text).Whole ∧ (numberText text).value = n ∧ -2 ^ 63 ≤ n ∧ n < 2 ^ 63 :=
  wholeInt_eq_some

theorem swiftBanner_iff {T : SwiftText} {banner : CString} :
    swiftBanner T banner ↔ StrictBanner T banner := by
  have hversion : T.version banner = Swift.rcAgentProtocolVersion ↔
      int (versionText T banner) = some 1 := by
    have hread : T.version banner = (int (versionText T banner)).getD (-1) := rfl
    rw [hread, Swift.rcAgentProtocolVersion]
    cases int (versionText T banner) with
    | none => simp
    | some n => simp
  rw [swiftBanner, StrictBanner, hversion, SwiftText.hasPrefix, List.isPrefixOf_iff_prefix,
    int_eq_some_iff]
  refine and_congr_right fun _ => and_congr_right fun _ => and_iff_left_of_imp fun _ => ?_
  decide

/-- No number is read as 0. -/
theorem int_getD_cases (text : CString) :
    ((numberText text).Whole ∧ -2 ^ 63 ≤ (numberText text).value ∧
      (numberText text).value < 2 ^ 63 ∧ (int text).getD 0 = (numberText text).value) ∨
    (¬((numberText text).Whole ∧ -2 ^ 63 ≤ (numberText text).value ∧
      (numberText text).value < 2 ^ 63) ∧ (int text).getD 0 = 0) := by
  cases hint : int text with
  | some n =>
    obtain ⟨hwhole, rfl, hlo, hhi⟩ := int_eq_some_iff.mp hint
    exact .inl ⟨hwhole, hlo, hhi, rfl⟩
  | none =>
    refine .inr ⟨fun h => ?_, rfl⟩
    rw [int_eq_some_iff.mpr ⟨h.1, rfl, h.2⟩] at hint
    cases hint

theorem noPort_iff {port : CString} :
    NoPort (numberText port) ↔ atoi32 port ≤ 0 ∧ (int port).getD 0 ≤ 0 := by
  rw [NoPort, ← atoi32_pos_iff, Int.not_lt]
  refine and_congr_right fun _ => ?_
  rcases int_getD_cases port with ⟨hwhole, hlo, hhi, h⟩ | ⟨hout, h⟩
  · rw [h]
    constructor
    · rintro (hno | hle | hlong)
      · exact absurd hwhole hno
      · exact hle
      · omega
    · exact fun hle => .inr (.inl hle)
  · rw [h]
    refine iff_of_true ?_ (Int.le_refl 0)
    by_contra hno
    simp only [not_or, not_not, Int.not_le] at hno
    exact hout ⟨hno.1, by omega, hno.2.2⟩

theorem plainPort_iff {port : CString} :
    PlainPort (numberText port) ↔ 0 < atoi32 port ∧ int port = some (atoi32 port) := by
  rw [PlainPort, int_eq_some_iff, atoi32_eq]
  generalize numberText port = t
  constructor
  · rintro ⟨hwhole, hpos, hlt⟩
    rw [toInt32_eq (by omega) hlt]
    exact ⟨hpos, hwhole, rfl, by omega, by omega⟩
  · rintro ⟨hpos, hwhole, hsame, -, -⟩
    have hbmod := bmod_cases t.value
    rcases toInt32_cases t.value with ⟨hout, h⟩ | ⟨hout, h⟩ | ⟨hlo, hhi, h⟩ <;> rw [h] at hpos hsame
    · omega
    · omega
    · exact ⟨hwhole, by omega, by omega⟩

theorem plainBase_iff {base : CString} :
    PlainBase (numberText base) ↔ (int base).getD 0 = atoi32 base := by
  rw [PlainBase, NumberText.Low, atoi32_eq]
  have hread := int_getD_cases base
  have hbmod := bmod_cases (numberText base).value
  have hint := toInt32_cases (numberText base).value
  generalize (int base).getD 0 = n at hread ⊢
  generalize toInt32 (numberText base).value = m at hint ⊢
  generalize (numberText base).value = v at *
  by_cases hwhole : (numberText base).Whole
  · simp only [hwhole, true_and, not_true_eq_false, false_and, or_false] at hread ⊢
    omega
  · simp only [hwhole, false_and, not_false_eq_true, true_and, false_or] at hread ⊢
    omega

/-! ## Each of them -/

theorem splitOn_eq (data : CString) : data.splitOn '\n' = bannerOf data :: linesOf data := by
  unfold bannerOf linesOf
  cases h : data.splitOn '\n' with
  | nil => exact absurd h (List.splitOn_ne_nil '\n' data)
  | cons banner lines => rfl

def gtkLine (ip line : CString) : Option Entry := (Gtk.parseDevLine ip line).map gtkEntry

def swiftLine (ip line : CString) : Option Entry := (Swift.parseDevLine ip line).map swiftEntry

/-- What `agent_scan` returns; it leaves empty lines out first, and could not read them
anyway. -/
theorem parseAnswer_eq (ip : CString) (port : Int) {data : CString}
    (hnul : ∀ c ∈ data, c ≠ '\x00') (hne : data ≠ []) : (parseAnswer ip port data).toOption =
      if gtkBanner (bannerOf data) then some ((linesOf data).filterMap (Gtk.parseDevLine ip))
      else none := by
  have hempty : Gtk.parseDevLine ip [] = none := rfl
  have hlines : ((linesOf data).filter (· ≠ [])).filterMap (Gtk.parseDevLine ip) =
      (linesOf data).filterMap (Gtk.parseDevLine ip) := by
    rw [List.filterMap_filter]
    refine List.filterMap_congr fun line _ => ?_
    by_cases hline : line = []
    · subst hline
      rfl
    · simp [hline]
  unfold parseAnswer
  rw [strsplit_eq hnul hne, splitOn_eq]
  dsimp only
  by_cases hstart : "RCAGENT ".toList <+: bannerOf data
  · rw [List.isPrefixOf_iff_prefix.mpr hstart, Bool.not_true, if_neg Bool.false_ne_true]
    by_cases hversion : atoi32 ((bannerOf data).drop 8) = Gtk.rcAgentProtocolVersion
    · rw [if_neg (not_not.mpr hversion), if_pos ⟨hstart, hversion⟩]
      exact congrArg some hlines
    · rw [if_pos hversion, if_neg fun h => hversion h.2]
      rfl
  · rw [if_pos (by simpa [← List.isPrefixOf_iff_prefix] using hstart),
      if_neg fun h => hstart h.1]
    rfl

theorem gtk_parse (ip : CString) (port : Int) {data : CString} (hnul : ∀ c ∈ data, c ≠ '\x00')
    (hne : data ≠ []) : (parseAnswer ip port data).toOption.map (fun devs => devs.map gtkEntry) =
      if gtkBanner (bannerOf data) then some ((linesOf data).filterMap (gtkLine ip)) else none := by
  rw [parseAnswer_eq ip port hnul hne]
  split
  · rw [Option.map_some, List.map_filterMap]
    rfl
  · rfl

theorem swift_parse (T : SwiftText) (ip : CString) (port : Int) {data text : CString}
    (h : T.decode data = some text) :
    (T.parse ip port data).toOption.map (fun devs => devs.map swiftEntry) =
      if swiftBanner T (bannerOf text) then some ((linesOf text).filterMap (swiftLine ip))
      else none := by
  have hlines : ((linesOf text).filterMap fun line =>
      if line = [] then none else Swift.parseDevLine ip line).map swiftEntry =
        (linesOf text).filterMap (swiftLine ip) := by
    rw [List.map_filterMap]
    refine List.filterMap_congr fun line _ => ?_
    by_cases hline : line = []
    · subst hline
      rfl
    · rw [if_neg hline]
      rfl
  unfold SwiftText.parse
  rw [h]
  dsimp only
  rw [splitOn_eq]
  dsimp only
  by_cases hstart : T.hasPrefix (bannerOf text) "RCAGENT ".toList = true
  · rw [hstart, Bool.not_true, if_neg Bool.false_ne_true]
    by_cases hversion : T.version (bannerOf text) = Swift.rcAgentProtocolVersion
    · rw [if_neg (not_not.mpr hversion), if_pos ⟨hstart, hversion⟩]
      exact congrArg some hlines
    · rw [if_pos hversion, if_neg fun h => hversion h.2]
      rfl
  · rw [if_pos (by simpa using hstart), if_neg fun h => hstart h.1]
    rfl

/-! ## A line -/

theorem atoi32_lt (cs : CString) : atoi32 cs < 2 ^ 31 := by
  unfold atoi32 toInt32
  have := @Int.bmod_lt (max (-2 ^ 63) (min (2 ^ 63 - 1) (atoi cs))) (2 ^ 32) (by decide)
  omega

/-- A number that Swift reads, of a size that an `int` can have. -/
theorem atoi32_of_int {text : CString} {n : Int} (h : int text = some n) (hpos : 0 < n)
    (hlt : n < 2 ^ 31) : atoi32 text = n := by
  rw [atoi32, atoi_of_int h, toInt32_eq (by omega) hlt]

/-- A line with its five fields; a line with fewer is read by neither. -/
theorem line_cases (ip : CString) {line : CString} (hnul : ∀ c ∈ line, c ≠ '\x00') :
    (gtkLine ip line = none ∧ swiftLine ip line = none ∧ FieldsAlike line) ∨
      ∃ port kind serial model base rest,
        line.splitOn '\t' = port :: kind :: serial :: model :: base :: rest ∧
        gtkLine ip line = (if 0 < atoi32 port then
          some ⟨atoi32 port, kind.take 15, model.take 95, atoi32 base⟩ else none) ∧
        swiftLine ip line = (if 0 < (int port).getD 0 then
          some ⟨(int port).getD 0, kind, model, (int base).getD 0⟩ else none) := by
  by_cases hne : line = []
  · subst hne
    exact .inl ⟨rfl, rfl, trivial⟩
  · unfold gtkLine Gtk.parseDevLine swiftLine Swift.parseDevLine FieldsAlike
    rw [strsplit_eq hnul hne]
    rcases line.splitOn '\t' with
      _ | ⟨port, _ | ⟨kind, _ | ⟨serial, _ | ⟨model, _ | ⟨base, rest⟩⟩⟩⟩⟩
    · exact .inl ⟨rfl, rfl, trivial⟩
    · exact .inl ⟨rfl, rfl, trivial⟩
    · exact .inl ⟨rfl, rfl, trivial⟩
    · exact .inl ⟨rfl, rfl, trivial⟩
    · exact .inl ⟨rfl, rfl, trivial⟩
    · refine .inr ⟨port, kind, serial, model, base, rest, rfl, ?_, ?_⟩
      · dsimp only
        split <;> rfl
      · dsimp only
        cases int port with
        | none => rfl
        | some n =>
          dsimp only [Option.getD_some]
          split <;> rfl

/-- A number that is not the default is read. -/
theorem int_eq_some {text : CString} (h : 0 < (int text).getD 0) :
    int text = some ((int text).getD 0) := by
  cases hint : int text with
  | none => simp [hint] at h
  | some n => rfl

theorem lines_alike_iff (ip : CString) {line : CString} (hnul : ∀ c ∈ line, c ≠ '\x00') :
    gtkLine ip line = swiftLine ip line ↔ FieldsAlike line := by
  rcases line_cases ip hnul with ⟨hgtk, hswift, halike⟩ | ⟨port, kind, serial, model, base, rest,
    hfields, hgtk, hswift⟩
  · rw [hgtk, hswift]
    exact iff_of_true rfl halike
  · unfold FieldsAlike
    rw [hgtk, hswift, hfields]
    dsimp only
    rw [noPort_iff, plainPort_iff, plainBase_iff]
    by_cases hport : 0 < atoi32 port
    · rw [if_pos hport]
      by_cases hint : 0 < (int port).getD 0
      · have hsome := int_eq_some hint
        rw [if_pos hint, Option.some.injEq, Entry.mk.injEq, List.take_eq_self_iff,
          List.take_eq_self_iff, or_iff_right (by omega)]
        constructor
        · rintro ⟨hsame, hkind, hmodel, hbase⟩
          exact ⟨⟨hport, by rw [hsome, hsame]⟩, hkind, hmodel, hbase.symm⟩
        · rintro ⟨⟨-, hsame⟩, hkind, hmodel, hbase⟩
          exact ⟨by rw [hsame, Option.getD_some], hkind, hmodel, hbase.symm⟩
      · rw [if_neg hint]
        refine iff_of_false (by simp) ?_
        rintro (⟨hnone, -⟩ | ⟨⟨-, hsame⟩, -⟩)
        · omega
        · rw [hsame, Option.getD_some] at hint
          exact hint hport
    · rw [if_neg hport]
      by_cases hint : 0 < (int port).getD 0
      · rw [if_pos hint]
        refine iff_of_false (by simp) ?_
        rintro (⟨-, hnone⟩ | ⟨⟨hpos, -⟩, -⟩)
        · omega
        · exact hport hpos
      · rw [if_neg hint]
        exact iff_of_true rfl (.inl ⟨by omega, by omega⟩)

/-- All the lines of an answer. The ports that only Swift can read are those that no `int`
holds, so no line that the one leaves out makes up for a line that the other does. -/
theorem answers_alike_iff (ip : CString) {lines : List CString}
    (hnul : ∀ line ∈ lines, ∀ c ∈ line, c ≠ '\x00') :
    lines.filterMap (gtkLine ip) = lines.filterMap (swiftLine ip) ↔
      ∀ line ∈ lines, FieldsAlike line := by
  refine (filterMap_eq_iff (fun e : Entry => e.adbPort < 2 ^ 31) ?_ ?_).trans
    (forall₂_congr fun line hline => lines_alike_iff ip (hnul line hline))
  · intro line hline e he
    rcases line_cases ip (hnul line hline) with ⟨hgtk, -⟩ | ⟨port, kind, serial, model, base, rest,
      -, hgtk, -⟩
    · rw [hgtk] at he
      cases he
    · rw [hgtk] at he
      obtain ⟨-, he⟩ := Option.ite_none_right_eq_some.mp he
      cases he
      exact atoi32_lt port
  · intro line hline e he hlt
    rcases line_cases ip (hnul line hline) with ⟨-, hswift, -⟩ | ⟨port, kind, serial, model, base,
      rest, -, hgtk, hswift⟩
    · rw [hswift] at he
      cases he
    · rw [hswift] at he
      obtain ⟨hpos, he⟩ := Option.ite_none_right_eq_some.mp he
      cases he
      dsimp only at hlt
      have hread : atoi32 port = (int port).getD 0 := atoi32_of_int (int_eq_some hpos) hpos hlt
      rw [hgtk, if_pos (by rw [hread]; exact hpos)]
      rfl

/-! ## The two scans -/

section

variable (T : SwiftText) (ip : CString) (port : Int) {peer : Timeline Char} {data : CString}
  {ending : Ending}

/-- What the C client reads is all or nothing. -/
theorem gtkScan_eq (hlen : (sent peer).length < 65535) (h : outcome 3000 peer = (data, ending))
    (hne : data ≠ []) : gtkScan ip port peer =
      if ending = .closed then
        (parseAnswer ip port data).toOption.map fun devs => devs.map gtkEntry
      else none := by
  have hroom : (outcome 3000 peer).1.length < 65536 - 1 :=
    Nat.lt_of_le_of_lt (outcome_sent 3000 peer).1.length_le hlen
  unfold gtkScan agentScan
  dsimp only
  rw [readToEof_eq hroom, h]
  obtain ⟨c, cs, rfl⟩ := List.exists_cons_of_ne_nil hne
  cases ending with
  | closed => rfl
  | reset => rfl
  | late => rfl

/-- The Swift client reads what has come. -/
theorem swiftScan_eq (hlen : (sent peer).length < 65535) (h : outcome 3000 peer = (data, ending))
    (hne : data ≠ []) : swiftScan T ip port peer =
      if ending = .reset then none
      else (T.parse ip port data).toOption.map fun devs => devs.map swiftEntry := by
  have hroom : (outcome 3000 peer).1.length < 2 ^ 20 :=
    Nat.lt_of_le_of_lt (outcome_sent 3000 peer).1.length_le (by omega)
  unfold swiftScan SwiftText.scan
  dsimp only
  rw [readToEOF_eq hroom, h]
  obtain ⟨c, cs, rfl⟩ := List.exists_cons_of_ne_nil hne
  cases ending with
  | closed => rfl
  | reset => rfl
  | late =>
    dsimp only
    rw [if_neg hne]
    rfl

theorem scans_empty (h : outcome 3000 peer = ([], ending)) :
    gtkScan ip port peer = none ∧ swiftScan T ip port peer = none := by
  have hroom : (outcome 3000 peer).1.length = 0 := by rw [h]; rfl
  constructor
  · unfold gtkScan agentScan
    dsimp only
    rw [readToEof_eq (by omega), h]
    cases ending <;> rfl
  · unfold swiftScan SwiftText.scan
    dsimp only
    rw [readToEOF_eq (by omega), h]
    cases ending <;> rfl

end

/-- An answer with a banner starts with no mark. -/
theorem decode_answer (T : SwiftText) {data : CString} (hutf8 : ∃ text, data = utf8 text)
    (h : "RCAGENT ".toList <+: bannerOf data) : T.decode data = some data := by
  obtain ⟨text, rfl⟩ := hutf8
  refine T.decode_utf8 text fun hmark => ?_
  obtain ⟨rest, hrest⟩ := hmark
  obtain ⟨behind, hbehind⟩ := h
  have hcons : utf8 text = Char.ofNat 0xEF :: (byteOrderMark.tail ++ rest) := by
    rw [← hrest]
    rfl
  have hbanner : ∃ first, bannerOf (utf8 text) = Char.ofNat 0xEF :: first := by
    unfold bannerOf
    rw [hcons, List.splitOn_cons_eq_if_modifyHead, if_neg (by decide)]
    cases hsplit : (byteOrderMark.tail ++ rest).splitOn '\n' with
    | nil => exact absurd hsplit (List.splitOn_ne_nil _ _)
    | cons first parts => exact ⟨first, rfl⟩
  obtain ⟨first, hfirst⟩ := hbanner
  rw [hfirst] at hbehind
  exact absurd (List.cons.inj hbehind).1 (by decide)

theorem scans_agree_iff (T : SwiftText) (ip : CString) (port : Int) {peer : Timeline Char}
    (hlen : (sent peer).length < 65535) (hutf8 : ∃ text, sent peer = utf8 text)
    (hnul : ∀ c ∈ sent peer, c ≠ '\x00') :
    gtkScan ip port peer = swiftScan T ip port peer ↔ ReadAlike T peer := by
  obtain ⟨hpart, hall⟩ := outcome_sent 3000 peer
  rcases hout : outcome 3000 peer with ⟨data, ending⟩
  rw [hout] at hpart hall
  unfold ReadAlike
  rw [hout]
  simp only [← swiftBanner_iff, ← gtkBanner_iff]
  by_cases hne : data = []
  · subst hne
    obtain ⟨hgtk, hswift⟩ := scans_empty T ip port hout
    rw [hgtk, hswift]
    exact iff_of_true rfl (.inl rfl)
  · rw [gtkScan_eq ip port hlen hout hne, swiftScan_eq T ip port hlen hout hne, or_iff_right hne]
    cases ending with
    | reset => exact iff_of_true rfl trivial
    | late =>
      rw [if_neg (by simp), if_neg (by simp)]
      dsimp only
      cases hdec : T.decode data with
      | none => simp [SwiftText.parse, hdec, Except.toOption]
      | some text =>
        rw [swift_parse T ip port hdec]
        by_cases hbanner : swiftBanner T (bannerOf text) <;> simp [hbanner]
    | closed =>
      obtain rfl : data = sent peer := hall rfl
      rw [if_pos rfl, if_neg (by simp), gtk_parse ip port hnul hne]
      dsimp only
      by_cases hgtk : gtkBanner (bannerOf (sent peer))
      · -- the banner leaves no room for a mark in front, so the whole text is decoded
        have hdec : T.decode (sent peer) = some (sent peer) := decode_answer T hutf8 hgtk.1
        rw [if_pos hgtk, swift_parse T ip port hdec]
        by_cases hswift : swiftBanner T (bannerOf (sent peer))
        · rw [if_pos hswift, Option.some.injEq, answers_alike_iff ip ?_]
          · simp [hgtk, hdec, hswift]
          · intro line hline c hc
            exact hnul c (mem_of_mem_splitOn (List.mem_of_mem_tail hline) hc)
        · simp [hgtk, hdec, hswift]
      · rw [if_neg hgtk]
        cases hdec : T.decode (sent peer) with
        | none => simp [SwiftText.parse, hdec, hgtk, Except.toOption]
        | some text =>
          rw [swift_parse T ip port hdec]
          by_cases hswift : swiftBanner T (bannerOf text) <;> simp [hgtk, hswift]

/-- An answer with one device, from a peer that then does `rest`. -/
def oneDevice (rest : Timeline Char) : Timeline Char :=
  (3, .bytes "RCAGENT 1\n5001\tUSB\tS\tM\t0\n".toList) :: rest

theorem scans_agree_iff_closed :
    gtkScan "10.0.0.9".toList 8888 (oneDevice [(5, .close)]) =
        swiftScan asciiText "10.0.0.9".toList 8888 (oneDevice [(5, .close)]) ↔
      ReadAlike asciiText (oneDevice [(5, .close)]) :=
  scans_agree_iff asciiText _ 8888 (by decide)
    ⟨"RCAGENT 1\n5001\tUSB\tS\tM\t0\n".toList, rfl⟩ (by simp [sent, oneDevice])

/-- The agent has answered, and does not close. -/
theorem scans_differ_open : ¬ ∀ peer : Timeline Char, (sent peer).length < 65535 →
    (∃ text, sent peer = utf8 text) → (∀ c ∈ sent peer, c ≠ '\x00') →
    gtkScan "10.0.0.9".toList 8888 peer = swiftScan asciiText "10.0.0.9".toList 8888 peer := by
  intro hall
  have hopen := hall (oneDevice []) (by decide)
    ⟨"RCAGENT 1\n5001\tUSB\tS\tM\t0\n".toList, rfl⟩ (by simp [sent, oneDevice])
  revert hopen
  decide

/-! ## What an agent writes -/

/-- The banner of an agent, for both. -/
theorem banner_alike (T : SwiftText) :
    gtkBanner "RCAGENT 1".toList ∧ swiftBanner T "RCAGENT 1".toList := by
  have hone : T.characters "RCAGENT 1".toList = "RCAGENT 1".toList.map ([·]) :=
    T.characters_ascii _ (by simp)
  have height : T.characters "RCAGENT ".toList = "RCAGENT ".toList.map ([·]) :=
    T.characters_ascii _ (by simp)
  have hnumber : T.isNumber ['1'] = true := by
    rw [T.isNumber_ascii '1' (by decide)]
    rfl
  refine ⟨by decide, ?_, ?_⟩
  · unfold SwiftText.hasPrefix
    rw [hone, height]
    decide
  · unfold SwiftText.version
    rw [hone, show ("RCAGENT 1".toList.map ([·])).drop 8 = [['1']] from rfl,
      List.takeWhile_cons_of_pos hnumber]
    rfl

theorem fieldsAlike_body {cfg : Config} {slot : Slot} {i : Nat}
    (hbase : cfg.adbBase = defaultAdbBase) (hi : i < maxSlots) (h : slot.Listable cfg i) :
    FieldsAlike (body slot.line) := by
  obtain ⟨⟨hport, hport'⟩, hstream, hstream'⟩ := h.ports hbase hi
  have hsplit := body_split h
  rw [strsplit_eq (fun c hc => (body_mem h hc).2) (body_ne_nil _)] at hsplit
  unfold FieldsAlike
  rw [hsplit]
  refine .inr ⟨plainPort_iff.mpr ?_, Nat.le_trans slot.kind.name_length (by decide),
    length_modelOrDash_le h.model.1, plainBase_iff.mpr ?_⟩
  · rw [atoi32_decimal_end (Int.le_of_lt hport) hport', int_decimal (by omega) (by omega)]
    exact ⟨hport, rfl⟩
  · rw [atoi32_decimal_end hstream hstream', int_decimal (by omega) (by omega), Option.getD_some]

/-- **Both clients read an agent alike.** With the default `--adb-base`, in every run of
the rescan thread over devices as adb lists them, at every point: where the answer is
UTF-8 and the agent closes in time, there is nothing that the two read differently. -/
theorem discovery_read_alike {cfg : Config} (hbase : cfg.adbBase = defaultAdbBase)
    {as : List ThreadAct} (has : ∀ a ∈ as, a.Plain) {t : Thread}
    (h : (threadLts cfg).run (threadLts cfg).init as = some t) (T : SwiftText)
    {peer : Timeline Char} (hpeer : outcome 3000 peer = (discoveryWrite t.tables, .closed))
    (hutf8 : ∃ text, discoveryWrite t.tables = utf8 text) : ReadAlike T peer := by
  have hlisted := listed_run has h
  have hslots := ofSlots_deviceLines hlisted
  have hsplit : (discoveryWrite t.tables).splitOn '\n' =
      "RCAGENT 1".toList :: ((deviceLines t.tables).map body ++ [[]]) := by
    rw [(discoveryWrite_eq hlisted hbase).1, answer_split hslots]
  have hbanner : bannerOf (discoveryWrite t.tables) = "RCAGENT 1".toList := by
    rw [bannerOf, hsplit]
    rfl
  have hlines : linesOf (discoveryWrite t.tables) = (deviceLines t.tables).map body ++ [[]] := by
    rw [linesOf, hsplit]
    rfl
  obtain ⟨hgtk, hswift⟩ := banner_alike T
  unfold ReadAlike
  rw [hpeer]
  simp only [← swiftBanner_iff, ← gtkBanner_iff]
  refine .inr ⟨?_, fun _ => ?_⟩
  · rw [decode_answer T hutf8 (hbanner ▸ hgtk.1), hbanner]
    exact iff_of_true hgtk ⟨_, rfl, hbanner ▸ hswift⟩
  · rw [hlines]
    intro line hline
    rcases List.mem_append.mp hline with hline | hline
    · obtain ⟨l, hl, rfl⟩ := List.mem_map.mp hline
      obtain ⟨i, slot, hi, hslot, rfl⟩ := hslots l hl
      exact fieldsAlike_body hbase hi hslot
    · obtain rfl := List.mem_singleton.mp hline
      trivial

end RigControl.Wire
