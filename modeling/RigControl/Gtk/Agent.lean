import RigControl.Gtk.Session
import RigControl.Lib.Decimal
import RigControl.Lib.Timeline

/-!
# The scan of an agent

`agent.c` of the GTK client: connect to the discovery port, read until the agent closes
and take the answer apart. A line with too few fields, or without a port, is left out;
another banner or version refuses the whole answer.
-/

namespace RigControl.Gtk

open RigControl.Lib

def rcAgentProtocolVersion : Int := 1

/-- The `AgentDev` of a scan, with what is only shown. -/
structure ScannedDev extends AgentDev where
  model : CString
  kind : CString
  adbPort : Int
  deriving DecidableEq, Repr

/-- A `GError` of the domain `rc-agent-scan`. -/
structure ScanError where
  code : Nat
  message : CString
  deriving DecidableEq

/-- `read_to_eof`; `none` is an error, or a peer that does not close in time. -/
def readToEof (cap timeoutMs : Nat) (peer : Timeline Char) : Option CString :=
  pollToEof (fun got => decide (cap - 1 ≤ got.length))
    (fun got bs => got ++ bs.take (cap - 1 - got.length))
    ⟨fun _ => none, fun _ => none, fun got => some got⟩ timeoutMs [] peer

/-- `g_strsplit`, of a C string: it ends at the first NUL, and has no part when empty. -/
def strsplit (sep : Char) (buf : CString) : List CString :=
  let text := buf.takeWhile (· ≠ '\x00')
  if text = [] then [] else text.splitOn sep

/-- A string in a field of `size` bytes, by `g_strlcpy` or `g_snprintf`. -/
def fitField (size : Nat) (text : CString) : CString := text.take (size - 1)

def parseDevLine (ip line : CString) : Option ScannedDev :=
  match strsplit '\t' line with
  | port :: kind :: _ :: model :: base :: _ =>
    let adbPort := atoi32 port
    if 0 < adbPort then
      some
        { host := fitField 64 ip
          serial := fitField 128 (address ip adbPort)
          kind := fitField 16 kind
          model := fitField 96 model
          adbPort := adbPort
          streamBase := atoi32 base }
    else none
  | _ => none

def connectError (ip : CString) (port : Int) : ScanError :=
  ⟨1, "Không kết nối được ".toList ++ address ip port ++
    " (agent chưa chạy? sai IP/cổng?)".toList⟩

def replyError (ip : CString) (port : Int) : ScanError :=
  ⟨2, address ip port ++ " không trả lời (cổng của dịch vụ khác?)".toList⟩

def bannerError (ip : CString) (port : Int) : ScanError :=
  ⟨3, address ip port ++ " không phải rc-agent (banner sai) — kiểm tra lại cổng.".toList⟩

def versionError (version : Int) : ScanError :=
  ⟨4, "Agent phiên bản ".toList ++ decimal version ++ ", app chỉ hiểu ".toList ++
    decimal rcAgentProtocolVersion ++ " — cập nhật cho khớp.".toList⟩

/-- What `agent_scan` makes of the bytes it has read. -/
def parseAnswer (ip : CString) (port : Int) (buf : CString) : Except ScanError (List ScannedDev) :=
  match strsplit '\n' buf with
  | [] => .error (bannerError ip port)
  | first :: lines =>
    if !"RCAGENT ".toList.isPrefixOf first then .error (bannerError ip port)
    else
      let version := atoi32 (first.drop 8)
      if version ≠ rcAgentProtocolVersion then .error (versionError version)
      else .ok ((lines.filter (· ≠ [])).filterMap (parseDevLine ip))

/-- `agent_scan`; `none` is a connection that was not made. -/
def agentScan (ip : CString) (port : Int) (conn : Option (Timeline Char)) :
    Except ScanError (List ScannedDev) :=
  match conn with
  | none => .error (connectError ip port)
  | some peer =>
    match readToEof 65536 3000 peer with
    | none | some [] => .error (replyError ip port)
    | some buf => parseAnswer ip port buf

/-! ## Reading -/

/-- A stream that the buffer holds is read whole when the peer closes in time, and not
at all otherwise. -/
theorem readToEof_eq {cap timeoutMs : Nat} {peer : Timeline Char}
    (h : (outcome timeoutMs peer).1.length < cap - 1) :
    readToEof cap timeoutMs peer =
      if (outcome timeoutMs peer).2 = .closed then some (outcome timeoutMs peer).1 else none := by
  have hfull : ∀ got : CString, got.length < cap - 1 → decide (cap - 1 ≤ got.length) = false := by
    intro got hgot
    exact decide_eq_false (Nat.not_le_of_lt hgot)
  have htake : ∀ got bs : CString, got.length + bs.length < cap - 1 →
      got ++ bs.take (cap - 1 - got.length) = got ++ bs := by
    intro got bs hroom
    rw [List.take_of_length_le (by omega)]
  rw [readToEof, pollToEof_eq hfull htake peer timeoutMs [] (by simpa using h)]
  cases (outcome timeoutMs peer).2 <;> rfl

theorem agentScan_closed {ip : CString} {port : Int} {peer : Timeline Char} {buf : CString}
    (h : outcome 3000 peer = (buf, .closed)) (hne : buf ≠ []) (hlen : buf.length < 65535) :
    agentScan ip port (some peer) = parseAnswer ip port buf := by
  have hread : readToEof 65536 3000 peer = some buf := by
    rw [readToEof_eq (by simpa [h] using hlen), h]
    rfl
  simp only [agentScan, hread]

end RigControl.Gtk
