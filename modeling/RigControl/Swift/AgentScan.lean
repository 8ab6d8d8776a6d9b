import RigControl.Lib.Decimal
import RigControl.Lib.Timeline

/-!
# The scan of an agent in Swift

`AgentScan.swift`: the same answer as in `agent.c`, read by Foundation and the String of
Swift. A text is its UTF-8, a character a byte. What Swift knows of Unicode is a
`SwiftText`: how a text falls into Characters, which of them are numbers, and what
Foundation takes for UTF-8.
-/

namespace RigControl.Swift

open RigControl.Lib

/-- The UTF-8 of a text, byte by byte. -/
def utf8 (text : List Char) : CString :=
  text.flatMap fun c => (String.utf8EncodeChar c).map fun b => Char.ofNat b.toNat

def byteOrderMark : CString := utf8 ['\uFEFF']

structure SwiftText where
  /-- `String(data:encoding: .utf8)`. -/
  decode : CString → Option CString
  /-- The Characters of a text, each by its UTF-8. -/
  characters : CString → List CString
  isNumber : CString → Bool
  decode_utf8 : ∀ text, ¬ byteOrderMark <+: utf8 text → decode (utf8 text) = some (utf8 text)
  /-- A printable ASCII text has one Character a byte. -/
  characters_ascii : ∀ cs : CString, (∀ c ∈ cs, 32 ≤ c.toNat ∧ c.toNat < 127) →
    characters cs = cs.map ([·])
  isNumber_ascii : ∀ c : Char, c.toNat < 128 → isNumber [c] = c.isDigit

/-- `Int(_:)`. -/
def int (text : CString) : Option Int := wholeInt (2 ^ 63) text

def rcAgentProtocolVersion : Int := 1

structure AgentDev where
  host : CString
  serial : CString
  model : CString
  kind : CString
  adbPort : Int
  streamBase : Int
  deriving DecidableEq, Repr

inductive AgentScanError where
  | connect (ip : CString) (port : Int)
  | noReply (ip : CString) (port : Int)
  | badBanner (ip : CString) (port : Int)
  | version (v : Int)
  deriving DecidableEq, Repr

def AgentScanError.errorDescription : AgentScanError → CString
  | .connect ip port =>
    "Không kết nối được ".toList ++ ip ++ ':' :: decimal port ++
      " (agent chưa chạy? sai IP/cổng?)".toList
  | .noReply ip port =>
    ip ++ ':' :: decimal port ++ " không trả lời (cổng của dịch vụ khác?)".toList
  | .badBanner ip port =>
    ip ++ ':' :: decimal port ++ " không phải rc-agent (banner sai) — kiểm tra lại cổng.".toList
  | .version v =>
    "Agent phiên bản ".toList ++ decimal v ++ ", app chỉ hiểu ".toList ++
      decimal rcAgentProtocolVersion ++ " — cập nhật cho khớp.".toList

/-- `readToEOF`: with something read, the end of the time is an end like another. -/
def readToEOF (timeoutMs : Nat) (peer : Timeline Char) : Option CString :=
  let late (out : CString) : Option CString := if out = [] then none else some out
  pollToEof (fun out => decide (2 ^ 20 ≤ out.length))
    -- in reads of 8192 bytes, as long as there are less than 2 ^ 20
    (fun out bs => out ++ bs.take (8192 * ((2 ^ 20 - out.length + 8191) / 8192)))
    ⟨late, fun _ => none, some⟩ timeoutMs [] peer

def parseDevLine (ip line : CString) : Option AgentDev :=
  match line.splitOn '\t' with
  | f0 :: f1 :: _ :: f3 :: f4 :: _ =>
    match int f0 with
    | some adbPort =>
      if 0 < adbPort then
        some ⟨ip, ip ++ ':' :: decimal adbPort, f3, f1, adbPort, (int f4).getD 0⟩
      else none
    | none => none
  | _ => none

namespace SwiftText

variable (T : SwiftText)

/-- `hasPrefix`, by Characters. -/
def hasPrefix (text start : CString) : Bool :=
  (T.characters start).isPrefixOf (T.characters text)

/-- The version in a banner, `-1` if there is none. -/
def version (banner : CString) : Int :=
  (int (((T.characters banner).drop 8).takeWhile T.isNumber).flatten).getD (-1)

/-- What `scan` makes of the data it has read. -/
def parse (ip : CString) (port : Int) (data : CString) : Except AgentScanError (List AgentDev) :=
  match T.decode data with
  | none => .error (.noReply ip port)
  | some text =>
    match text.splitOn '\n' with
    | [] => .error (.badBanner ip port)
    | banner :: lines =>
      if !T.hasPrefix banner "RCAGENT ".toList then .error (.badBanner ip port)
      else if T.version banner ≠ rcAgentProtocolVersion then .error (.version (T.version banner))
      else .ok (lines.filterMap fun line => if line = [] then none else parseDevLine ip line)

/-- `scan`; `none` is a connection that was not made. -/
def scan (ip : CString) (port : Int) (conn : Option (Timeline Char)) :
    Except AgentScanError (List AgentDev) :=
  match conn with
  | none => .error (.connect ip port)
  | some peer =>
    match readToEOF 3000 peer with
    | none | some [] => .error (.noReply ip port)
    | some data => T.parse ip port data

/-! ## What is reported -/

/-- What a scan of `port` at `ip` can end with. -/
def Reports (ip : CString) (port : Int) : AgentScanError → Prop
  | .connect i p | .noReply i p | .badBanner i p => i = ip ∧ p = port
  | .version v => v ≠ rcAgentProtocolVersion

variable {T} {ip data : CString} {port : Int} {conn : Option (Timeline Char)} {e : AgentScanError}

theorem parse_reports (h : T.parse ip port data = .error e) : Reports ip port e := by
  unfold parse at h
  split at h
  · cases h
    exact ⟨rfl, rfl⟩
  · split at h
    · cases h
      exact ⟨rfl, rfl⟩
    · split at h
      · cases h
        exact ⟨rfl, rfl⟩
      · split at h
        · cases h
          assumption
        · cases h

/-- An error tells the address it is about; but for another version, that one. -/
theorem scan_error_tells (h : T.scan ip port conn = .error e) :
    (ip ++ ':' :: decimal port) <:+: e.errorDescription ∨
      ∃ v, v ≠ rcAgentProtocolVersion ∧ decimal v <:+: e.errorDescription := by
  have hreports : Reports ip port e := by
    unfold scan at h
    split at h
    · cases h
      exact ⟨rfl, rfl⟩
    · split at h
      · cases h
        exact ⟨rfl, rfl⟩
      · cases h
        exact ⟨rfl, rfl⟩
      · exact parse_reports h
  cases e with
  | connect i p =>
    obtain ⟨rfl, rfl⟩ := hreports
    have hassoc : ∀ a b c d : CString, (b ++ c) <:+: a ++ b ++ c ++ d := fun a b c d =>
      List.append_assoc a b c ▸ List.infix_append a (b ++ c) d
    exact .inl (hassoc _ _ _ _)
  | noReply i p =>
    obtain ⟨rfl, rfl⟩ := hreports
    exact .inl (List.prefix_append _ _).isInfix
  | badBanner i p =>
    obtain ⟨rfl, rfl⟩ := hreports
    exact .inl (List.prefix_append _ _).isInfix
  | version v =>
    have hinside : ∀ a b c d e : CString, b <:+: a ++ b ++ c ++ d ++ e := fun a b c d e =>
      ((List.infix_append a b c).trans (List.prefix_append _ d).isInfix).trans
        (List.prefix_append _ e).isInfix
    exact .inr ⟨v, hreports, hinside _ _ _ _ _⟩

end SwiftText

/-- A stream that the reader has room for is read as far as it comes in time. -/
theorem readToEOF_eq {timeoutMs : Nat} {peer : Timeline Char}
    (h : (outcome timeoutMs peer).1.length < 2 ^ 20) :
    readToEOF timeoutMs peer =
      match (outcome timeoutMs peer).2 with
      | .closed => some (outcome timeoutMs peer).1
      | .reset => none
      | .late => if (outcome timeoutMs peer).1 = [] then none else some (outcome timeoutMs peer).1 := by
  have hfull : ∀ out : CString, out.length < 2 ^ 20 → decide (2 ^ 20 ≤ out.length) = false := by
    intro out hout
    exact decide_eq_false (Nat.not_le_of_lt hout)
  have htake : ∀ out bs : CString, out.length + bs.length < 2 ^ 20 →
      out ++ bs.take (8192 * ((2 ^ 20 - out.length + 8191) / 8192)) = out ++ bs := by
    intro out bs hroom
    rw [List.take_of_length_le (by omega)]
  rw [readToEOF, pollToEof_eq hfull htake peer timeoutMs [] (by simpa using h)]
  cases (outcome timeoutMs peer).2 <;> rfl

/-- Where Swift sees a number, `atoi` sees the same. -/
theorem atoi_of_int {text : CString} {n : Int} (h : int text = some n) : atoi text = n :=
  (atoi_of_wholeInt h).1

/-- What `%d` prints is read back. -/
theorem int_decimal {n : Int} (hlo : -2 ^ 63 ≤ n) (hhi : n < 2 ^ 63) : int (decimal n) = some n :=
  wholeInt_decimal hlo hhi

end RigControl.Swift
