import Mathlib.Data.Finset.Card
import RigControl.Agent.Answer
import RigControl.Gtk.Agent
import RigControl.Gtk.Chooser
import RigControl.Lib.Update

/-!
# The scans of the chooser

`chooser.c` between the UI thread and its scan threads: a list is filled from `adb
devices`, and with it every wireless device that no scan knows has its host asked, once,
on a thread of its own; the user asks other hosts by hand. What a thread has found comes
back by an idle callback, which fills the list again, and so may ask again. The threads,
the callbacks and the user interleave as they like. `scans_orderly` says what holds
whatever they do, `cascade_ends` that without the user it comes to rest.
-/

namespace RigControl.Gtk

open RigControl.Lib RigControl.Agent

/-! ## `list_adb_devices` -/

/-- `fgets` with room for `n` characters: a line with its end, or as much of it as fits. -/
def fgets : Nat → CString → CString × CString
  | 0, cs => ([], cs)
  | _ + 1, [] => ([], [])
  | n + 1, c :: cs =>
    if c = '\n' then ([c], cs)
    else
      let (line, rest) := fgets n cs
      (c :: line, rest)

/-- Until the end of the output; each turn takes a character at least. -/
def fgetsAll (n : Nat) : Nat → CString → List CString
  | 0, _ | _, [] => []
  | turns + 1, cs => (fgets n cs).1 :: fgetsAll n turns (fgets n cs).2

/-- `list_adb_devices`; `none` is an adb that does not run. -/
def listAdbDevices (out : Option CString) : List Dev :=
  match out with
  | none => []
  | some out =>
    ((fgetsAll 511 out.length out).drop 1).filterMap fun line =>
      listedDev (line.takeWhile (· ≠ '\x00'))

/-! ## The state -/

inductive ScanPhase where
  | running
  /-- The callback is waiting. -/
  | posted (devs : Option (List ScannedDev)) (msg : CString)
  | done (devs : Option (List ScannedDev))
  deriving DecidableEq, Repr

def ScanPhase.isDone : ScanPhase → Bool
  | .done _ => true
  | _ => false

/-- An `AgentScan`, or an `AutoProbe` when it was not started by hand. -/
structure ScanThread where
  manual : Bool
  /-- The window whose list is filled. -/
  window : Nat
  host : CString
  port : Int
  phase : ScanPhase
  deriving DecidableEq, Repr

structure ChooserRow where
  serial : CString
  model : CString
  label : CString
  deriving DecidableEq, Repr

/-- A window of `chooser_show`; the entry and the button are sensitive together. -/
structure ChooserWindow where
  rows : List ChooserRow
  note : Option CString
  status : CString
  sensitive : Bool
  deriving DecidableEq, Repr

structure Scanning where
  agentDevs : List ScannedDev
  probedHosts : List CString
  threads : List ScanThread
  windows : List ChooserWindow
  sessions : List PortSession
  deriving DecidableEq, Repr

namespace Scanning

variable (base : Base) (adbAvailable : Bool)

def registered (s : Scanning) (serial : CString) : Bool :=
  s.agentDevs.any fun ad => ad.serial = serial

def isProbed (s : Scanning) (host : CString) : Bool :=
  s.probedHosts.any fun known => known = host

/-- `conn_label`. -/
def connLabel (agentDevs : List ScannedDev) (serial : CString) : CString :=
  match agentDevs.find? fun ad => ad.serial = serial with
  | some ad =>
    if ad.kind = "emulator".toList then "Máy ảo (agent)".toList
    else if ad.kind = "USB".toList then "USB (agent)".toList
    else "LAN (agent)".toList
  | none =>
    if serial.contains ':' then "LAN".toList
    else if "emulator-".toList.isPrefixOf serial then "Máy ảo".toList
    else "USB".toList

def emptyNote : CString :=
  if adbAvailable then
    "Không thấy thiết bị. Cắm máy / bật USB debugging, hoặc quét agent.".toList
  else
    ("Không tìm thấy `adb`. Cài Android platform-tools, mở app từ terminal có adb, " ++
      "hoặc đặt RC_ADB_PATH=/đường/dẫn/tới/adb.").toList

/-- `DEFAULT_DISCOVERY_PORT`. -/
def discoveryPort : Int := 8888

/-- The host whose agent a wireless device may be from. -/
def probeHost (serial : CString) : Option CString :=
  (splitAtColon serial).bind fun (host, _) =>
    if host.length = 0 ∨ 128 ≤ host.length then none else some host

/-- A turn of `auto_probe_agents`. -/
def autoProbe (i : Nat) (s : Scanning) (serial : CString) : Scanning :=
  if !serial.contains ':' || s.registered serial then s
  else
    match probeHost serial with
    | none => s
    | some host =>
      if s.isProbed host then s
      else
        { s with
          probedHosts := host :: s.probedHosts
          threads := s.threads ++ [⟨false, i, host, discoveryPort, .running⟩] }

/-- `populate_devices`, with what `adb devices` prints. -/
def populate (i : Nat) (out : Option CString) (s : Scanning) : Scanning :=
  let devs := if adbAvailable then listAdbDevices out else []
  let rows := devs.map fun d => ⟨d.serial, d.model, connLabel s.agentDevs d.serial⟩
  let note := if devs = [] then some (emptyNote adbAvailable) else none
  let s := { s with windows := s.windows.modify i fun w => { w with rows := rows, note := note } }
  (devs.map Dev.serial).foldl (autoProbe i) s

/-- The address that is typed in: a port is the one behind the last colon. -/
def scanTarget (text : CString) : CString × Int :=
  match splitAtColon text with
  | some (ip, port) => (ip, if atoi32 port ≤ 0 then discoveryPort else atoi32 port)
  | none => (text, discoveryPort)

/-- `agent_scan_start`. -/
def scanStart (i : Nat) (text : CString) (s : Scanning) : Scanning :=
  if text = [] then s
  else
    let (ip, port) := scanTarget text
    { s with
      probedHosts := if s.isProbed ip then s.probedHosts else ip :: s.probedHosts
      threads := s.threads ++ [⟨true, i, ip, port, .running⟩]
      windows := s.windows.modify i fun w =>
        { w with status := "Đang quét agent…".toList, sensitive := false } }

/-- The devices that `adb connect` and `get-state` reach. -/
def connected (devs : List ScannedDev) (oks : List Bool) : List ScannedDev :=
  ((devs.zip oks).filter (·.2)).map (·.1)

def scanMsg (ip : CString) (ok total : Nat) : CString :=
  if 0 < ok then
    "Agent ".toList ++ ip ++ ": nối được ".toList ++ decimal ok ++ '/' :: decimal total ++
      " thiết bị — bấm để mở.".toList
  else if !adbAvailable then
    "Agent ".toList ++ ip ++ ": thấy ".toList ++ decimal total ++
      (" thiết bị nhưng máy này không chạy được " ++
        "`adb`. Cài platform-tools hoặc đặt RC_ADB_PATH.").toList
  else
    "Agent ".toList ++ ip ++ ": ".toList ++ decimal total ++
      " thiết bị nhưng không nối được máy nào (kiểm tra adb / mạng).".toList

/-- `auto_probe_thread`, or `agent_scan_thread`: what it posts. -/
def answer (t : ScanThread) (conn : Option (Timeline Char)) (oks : List Bool) : ScanPhase :=
  match agentScan t.host t.port conn with
  | .error err => if t.manual then .posted (some []) err.message else .posted none []
  | .ok devs =>
    if t.manual then
      let ok := connected devs oks
      .posted (some ok) (scanMsg adbAvailable t.host ok.length devs.length)
    else .posted (some devs) []

def register (agentDevs : List ScannedDev) (ad : ScannedDev) : List ScannedDev :=
  ad :: agentDevs.filter fun old => old.serial ≠ ad.serial

/-- `auto_probe_done`, or `agent_scan_done`. -/
def finish (t : ScanThread) (devs : Option (List ScannedDev)) (msg : CString)
    (out : Option CString) (s : Scanning) : Scanning :=
  let s := { s with agentDevs := (devs.getD []).foldl register s.agentDevs }
  if t.manual then
    let s := { s with
      windows := s.windows.modify t.window fun w => { w with status := msg, sensitive := true } }
    s.populate adbAvailable t.window out
  else if devs.isSome then s.populate adbAvailable t.window out
  else s

/-- What the sessions see. -/
def app (s : Scanning) : App := ⟨s.agentDevs.map (·.toAgentDev), s.sessions⟩

end Scanning

/-! ## The steps -/

inductive ScanAct where
  /-- `chooser_show`. -/
  | chooserShow (out : Option CString)
  /-- `on_refresh`. -/
  | refresh (i : Nat) (out : Option CString)
  /-- `on_agent_activate` or `on_agent_clicked`. -/
  | scan (i : Nat) (text : CString)
  /-- A thread posts its callback. -/
  | answer (j : Nat) (conn : Option (Timeline Char)) (oks : List Bool)
  | callback (j : Nat) (out : Option CString)
  /-- `on_row_activated`. -/
  | row (i k : Nat) (sel : Settings) (created : Bool)
  /-- The window of a session is destroyed. -/
  | close (n : Nat)
  deriving DecidableEq

def scanStep (base : Base) (adbAvailable : Bool) (s : Scanning) : ScanAct → Option Scanning
  | .chooserShow out =>
    let shown : ChooserWindow := ⟨[], none, [], true⟩
    let s' := { s with windows := s.windows ++ [shown] }
    some (s'.populate adbAvailable s.windows.length out)
  | .refresh i out => if i < s.windows.length then some (s.populate adbAvailable i out) else none
  | .scan i text => (s.windows[i]?.filter (·.sensitive)).map fun _ => s.scanStart i text
  | .answer j conn oks =>
    (s.threads[j]?.filter (·.phase = .running)).map fun t =>
      { s with
        threads := s.threads.set j { t with phase := Scanning.answer adbAvailable t conn oks } }
  | .callback j out =>
    s.threads[j]?.bind fun t =>
      match t.phase with
      | .posted devs msg =>
        some (Scanning.finish adbAvailable t devs msg out
          { s with threads := s.threads.set j { t with phase := .done devs } })
      | _ => none
  | .row i k sel created =>
    s.windows[i]?.bind fun w => w.rows[k]?.map fun r =>
      if created then { s with sessions := s.app.rowSession base sel r.serial :: s.sessions }
      else s
  | .close n =>
    some { s with sessions := s.sessions.modify n fun session => { session with torn := true } }

def scanLts (base : Base) (adbAvailable : Bool) : Lts Scanning ScanAct :=
  { init := ⟨[], [], [], [], []⟩, step := scanStep base adbAvailable }

namespace Scanning

variable {base : Base} {adbAvailable : Bool} {s s' : Scanning} {i : Nat} {serial host : CString}

/-! ## A list is filled -/

theorem colon_of_probeHost (h : probeHost serial = some host) : serial.contains ':' = true := by
  obtain ⟨⟨ip, port⟩, hsplit, -⟩ := Option.bind_eq_some_iff.mp h
  exact List.elem_iff.mpr (colon_mem_of_splitAtColon hsplit)

theorem isProbed_iff : s.isProbed host = true ↔ host ∈ s.probedHosts := by
  simp [isProbed]

/-- The probe of a host that no scan knew. -/
def probe (i : Nat) (host : CString) : ScanThread := ⟨false, i, host, discoveryPort, .running⟩

/-- What filling the list of `serials` in the window `i` starts: a probe of each of `hosts`. -/
structure Probes (i : Nat) (serials hosts : List CString) (s s' : Scanning) : Prop where
  agentDevs : s'.agentDevs = s.agentDevs
  windows : s'.windows = s.windows
  sessions : s'.sessions = s.sessions
  threads : s'.threads = s.threads ++ hosts.map (probe i)
  nodup : hosts.Nodup
  fresh : ∀ host ∈ hosts, host ∉ s.probedHosts
  probedHosts : ∀ host, host ∈ s'.probedHosts ↔ host ∈ s.probedHosts ∨ host ∈ hosts
  from_serials : ∀ host ∈ hosts, ∃ serial ∈ serials, probeHost serial = some host
  all : ∀ serial ∈ serials, ∀ host, probeHost serial = some host →
    s.registered serial = true ∨ host ∈ s'.probedHosts

theorem autoProbe_cases (i : Nat) (s : Scanning) (serial : CString) :
    (autoProbe i s serial = s ∧ ∀ host, probeHost serial = some host →
      s.registered serial = true ∨ host ∈ s.probedHosts) ∨
    ∃ host, probeHost serial = some host ∧ host ∉ s.probedHosts ∧ autoProbe i s serial =
      { s with probedHosts := host :: s.probedHosts, threads := s.threads ++ [probe i host] } := by
  unfold autoProbe
  split
  case isTrue hskip =>
    refine .inl ⟨rfl, fun host hhost => .inl ?_⟩
    rcases (Bool.or_eq_true _ _).mp hskip with hcolon | hreg
    · rw [colon_of_probeHost hhost] at hcolon
      exact Bool.noConfusion hcolon
    · exact hreg
  case isFalse =>
    split
    case h_1 hnone => exact .inl ⟨rfl, fun host hhost => nomatch hnone.symm.trans hhost⟩
    case h_2 host hhost =>
      split
      case isTrue hprobed =>
        refine .inl ⟨rfl, fun other hother => .inr ?_⟩
        rw [← Option.some.inj (hhost.symm.trans hother)]
        exact isProbed_iff.mp hprobed
      case isFalse hprobed =>
        exact .inr ⟨host, hhost, fun hmem => hprobed (isProbed_iff.mpr hmem), rfl⟩

theorem foldl_autoProbe (i : Nat) (serials : List CString) (s : Scanning) :
    ∃ hosts, Probes i serials hosts s (serials.foldl (autoProbe i) s) := by
  induction serials generalizing s with
  | nil =>
    refine ⟨[], rfl, rfl, rfl, (List.append_nil _).symm, List.nodup_nil, nofun, fun host => ?_,
      nofun, nofun⟩
    simp
  | cons serial serials ih =>
    obtain ⟨hosts, h⟩ := ih (autoProbe i s serial)
    rw [List.foldl_cons]
    rcases autoProbe_cases i s serial with ⟨heq, hskip⟩ | ⟨host, hhost, hfresh, heq⟩
    · rw [heq] at h ⊢
      refine ⟨hosts, { h with from_serials := fun host hh => ?_, all := ?_ }⟩
      · obtain ⟨other, hother, hprobe⟩ := h.from_serials host hh
        exact ⟨other, List.mem_cons_of_mem serial hother, hprobe⟩
      · rw [List.forall_mem_cons]
        refine ⟨fun host hhost => ?_, h.all⟩
        exact (hskip host hhost).imp_right fun hmem => (h.probedHosts host).mpr (.inl hmem)
    · rw [heq] at h ⊢
      have hmem : ∀ other, other ∈ host :: s.probedHosts ∨ other ∈ hosts ↔
          other ∈ s.probedHosts ∨ other ∈ host :: hosts := by
        intro other
        simp only [List.mem_cons]
        tauto
      refine ⟨host :: hosts, h.agentDevs, h.windows, h.sessions, ?threads, ?nodup, ?fresh, ?probed,
        ?from_serials, ?all⟩
      case threads =>
        rw [h.threads, List.append_assoc]
        rfl
      case nodup =>
        exact List.nodup_cons.mpr ⟨fun hin => h.fresh host hin List.mem_cons_self, h.nodup⟩
      case fresh =>
        exact List.forall_mem_cons.mpr
          ⟨hfresh, fun other hin hp => h.fresh other hin (List.mem_cons_of_mem host hp)⟩
      case probed => exact fun other => (h.probedHosts other).trans (hmem other)
      case from_serials =>
        refine List.forall_mem_cons.mpr ⟨⟨serial, List.mem_cons_self, hhost⟩, fun other hin => ?_⟩
        obtain ⟨from_serial, hserial, hprobe⟩ := h.from_serials other hin
        exact ⟨from_serial, List.mem_cons_of_mem serial hserial, hprobe⟩
      case all =>
        refine List.forall_mem_cons.mpr ⟨fun other hother => .inr ?_, h.all⟩
        obtain rfl := Option.some.inj (hhost.symm.trans hother)
        exact (h.probedHosts host).mpr (.inl List.mem_cons_self)

/-- The rows of a list filled now. -/
def rowsOf (agentDevs : List ScannedDev) (devs : List Dev) : List ChooserRow :=
  devs.map fun d => ⟨d.serial, d.model, connLabel agentDevs d.serial⟩

/-- `populate_devices` changes the rows of one window, and starts probes. -/
theorem populate_spec (adbAvailable : Bool) (i : Nat) (out : Option CString) (s : Scanning) :
    ∃ devs note hosts, (∀ d ∈ devs, d ∈ listAdbDevices out) ∧
      Probes i (devs.map Dev.serial) hosts
        { s with windows := s.windows.modify i fun w =>
          { w with rows := rowsOf s.agentDevs devs, note := note } }
        (s.populate adbAvailable i out) := by
  obtain ⟨hosts, hp⟩ := foldl_autoProbe i _ _
  refine ⟨_, _, hosts, fun d hd => ?_, hp⟩
  cases adbAvailable with
  | true => exact hd
  | false => exact nomatch hd

/-! ## What holds -/

/-- A device that may be from an agent is known by a scan, or its host was asked. -/
def Asked (s : Scanning) (serial : CString) : Prop :=
  ∀ host, probeHost serial = some host → s.registered serial = true ∨ host ∈ s.probedHosts

/-- A scan by hand that has not come back to the window. -/
def waiting (i : Nat) (t : ScanThread) : Bool := t.manual && t.window = i && !t.phase.isDone

/-- Every scan that has found devices of an agent was started from this window. -/
def FilledBy (s : Scanning) (i : Nat) : Prop :=
  ∀ t ∈ s.threads, ∀ devs, t.phase = .done (some devs) → devs ≠ [] → t.window = i

structure Orderly (s : Scanning) : Prop where
  /-- A probe is of a host that no thread was started for. -/
  once : s.threads.Pairwise fun t u => u.manual = false → t.host ≠ u.host
  probed : ∀ host, host ∈ s.probedHosts ↔ ∃ t ∈ s.threads, t.host = host
  rows : ∀ w ∈ s.windows, ∀ r ∈ w.rows, s.Asked r.serial
  kept : ∀ t ∈ s.threads, ∀ devs, t.phase = .done (some devs) →
    ∀ d ∈ devs, s.registered d.serial = true
  known : ∀ ad ∈ s.agentDevs, ∃ t ∈ s.threads, ∃ devs, t.phase = .done (some devs) ∧ ad ∈ devs
  shown : ∀ t ∈ s.threads, t.window < s.windows.length
  waits : ∀ i w, s.windows[i]? = some w →
    s.threads.countP (waiting i) = if w.sensitive then 0 else 1

/-- The rows of a window say of every device what a list filled now would say. -/
def Labelled (s : Scanning) (i : Nat) : Prop :=
  s.FilledBy i → ∀ w, s.windows[i]? = some w →
    ∀ r ∈ w.rows, r.label = connLabel s.agentDevs r.serial

theorem Asked.mono (h : s.Asked serial)
    (hreg : ∀ serial, s.registered serial = true → s'.registered serial = true)
    (hprobed : ∀ host ∈ s.probedHosts, host ∈ s'.probedHosts) : s'.Asked serial :=
  fun host hhost => (h host hhost).imp (hreg serial) (hprobed host)

theorem registered_iff : s.registered serial = true ↔ ∃ ad ∈ s.agentDevs, ad.serial = serial := by
  simp [registered, List.any_eq_true]

/-! ### Filling a list -/

theorem countP_probes (i : Nat) (hosts : List CString) (j : Nat) :
    (hosts.map (probe i)).countP (waiting j) = 0 := by
  rw [List.countP_eq_zero]
  intro t ht
  obtain ⟨host, -, rfl⟩ := List.mem_map.mp ht
  exact Bool.false_ne_true

theorem Orderly.populate (h : s.Orderly) (hi : i < s.windows.length) (out : Option CString) :
    (s.populate adbAvailable i out).Orderly := by
  obtain ⟨devs, note, hosts, -, hp⟩ := populate_spec adbAvailable i out s
  have hreg : ∀ serial, s.registered serial = true →
      (s.populate adbAvailable i out).registered serial = true := fun serial hr => by
    rw [registered, hp.agentDevs]
    exact hr
  have hprobed : ∀ host ∈ s.probedHosts, host ∈ (s.populate adbAvailable i out).probedHosts :=
    fun host hh => (hp.probedHosts host).mpr (.inl hh)
  have hphase : ∀ t ∈ (s.populate adbAvailable i out).threads, ∀ devs,
      t.phase = .done devs → t ∈ s.threads := by
    intro t ht devs hdone
    rw [hp.threads] at ht
    rcases List.mem_append.mp ht with ht | ht
    · exact ht
    · obtain ⟨host, -, rfl⟩ := List.mem_map.mp ht
      exact nomatch hdone
  refine ⟨?once, ?probed, ?rows, ?kept, ?known, ?shown, ?waits⟩
  case once =>
    rw [hp.threads, List.pairwise_append]
    refine ⟨h.once, ?_, fun t ht u hu _ heq => ?_⟩
    · exact List.pairwise_map.mpr (hp.nodup.imp fun hne (_ : false = false) => hne)
    · obtain ⟨host, hhost, rfl⟩ := List.mem_map.mp hu
      exact hp.fresh host hhost ((h.probed host).mpr ⟨t, ht, heq⟩)
  case probed =>
    intro host
    have hstarted : host ∈ hosts ↔ ∃ t ∈ hosts.map (probe i), t.host = host := by
      simp [probe]
    rw [hp.probedHosts host, hp.threads]
    simp only [List.mem_append, or_and_right, exists_or]
    exact or_congr (h.probed host) hstarted
  case rows =>
    intro w hw r hr
    rw [hp.windows] at hw
    have hold : ∀ b ∈ s.windows, ∀ r ∈ b.rows, (s.populate adbAvailable i out).Asked r.serial :=
      fun b hb r hr => (h.rows b hb r hr).mono hreg hprobed
    rcases mem_modify_cases hw with hw | ⟨b, hb, rfl⟩
    · exact hold w hw r hr
    · obtain ⟨d, hd, rfl⟩ := List.mem_map.mp hr
      exact fun host hhost => (hp.all d.serial (List.mem_map_of_mem hd) host hhost).imp_left
        (hreg d.serial)
  case kept =>
    exact fun t ht devs hdone d hd => hreg _ (h.kept t (hphase t ht _ hdone) devs hdone d hd)
  case known =>
    intro ad had
    rw [hp.agentDevs] at had
    obtain ⟨t, ht, hdone⟩ := h.known ad had
    exact ⟨t, hp.threads ▸ List.mem_append_left _ ht, hdone⟩
  case shown =>
    intro t ht
    rw [hp.windows, List.length_modify]
    rw [hp.threads] at ht
    rcases List.mem_append.mp ht with ht | ht
    · exact h.shown t ht
    · obtain ⟨host, -, rfl⟩ := List.mem_map.mp ht
      exact hi
  case waits =>
    intro j w hw
    rw [hp.threads, List.countP_append, countP_probes, Nat.add_zero]
    rw [hp.windows] at hw
    obtain ⟨b, hb, rfl⟩ := modify_eq_some hw
    have hsame : (if i = j then { b with rows := rowsOf s.agentDevs devs, note := note }
        else b).sensitive = b.sensitive := by
      split <;> rfl
    refine (h.waits j b hb).trans ?_
    rw [hsame]

theorem Labelled.populate {j : Nat} (h : j ≠ i → s.Labelled j) (out : Option CString) :
    (s.populate adbAvailable i out).Labelled j := by
  obtain ⟨devs, note, hosts, -, hp⟩ := populate_spec adbAvailable i out s
  intro hfilled w hw r hr
  rw [hp.agentDevs]
  rw [hp.windows] at hw
  obtain ⟨b, hb, rfl⟩ := modify_eq_some hw
  by_cases hj : i = j
  · rw [if_pos hj] at hr
    obtain ⟨d, -, rfl⟩ := List.mem_map.mp hr
    rfl
  · rw [if_neg hj] at hr
    refine h (Ne.symm hj) (fun t ht devs hdone hne => ?_) b hb r hr
    exact hfilled t (hp.threads ▸ List.mem_append_left _ ht) devs hdone hne

/-! ### A thread goes on -/

section

variable {j : Nat} {t : ScanThread} {phase : ScanPhase}

/-- The phase of a thread that is not done may change, and what is registered may grow by
what it has found. -/
theorem Orderly.advance (h : s.Orderly) (ht : s.threads[j]? = some t)
    (hrunning : ∀ devs, t.phase ≠ .done devs) {agentDevs : List ScannedDev}
    {windows : List ChooserWindow}
    (hs : s' = { s with
      agentDevs := agentDevs, windows := windows
      threads := s.threads.set j { t with phase := phase } })
    (hreg : ∀ serial, s.registered serial = true → s'.registered serial = true)
    (hfound : ∀ devs, phase = .done (some devs) → ∀ d ∈ devs, s'.registered d.serial = true)
    (hknown : ∀ ad ∈ agentDevs, ad ∈ s.agentDevs ∨ ∃ devs, phase = .done (some devs) ∧ ad ∈ devs)
    (hrows : ∀ w ∈ windows, ∃ b ∈ s.windows, w.rows = b.rows)
    (hlen : windows.length = s.windows.length)
    (hwaits : ∀ i w, windows[i]? = some w →
      (s.threads.set j { t with phase := phase }).countP (waiting i) =
        if w.sensitive then 0 else 1) : s'.Orderly := by
  have hmem : ∀ u ∈ s.threads, ∀ devs, u.phase = .done devs →
      u ∈ s.threads.set j { t with phase := phase } := fun u hu devs hdone =>
    mem_set_of_ne ht hu fun heq => hrunning devs (heq ▸ hdone)
  have hself : { t with phase := phase } ∈ s.threads.set j { t with phase := phase } :=
    mem_set_self ht
  subst hs
  refine ⟨?once, ?probed, ?rows, ?kept, ?known, ?shown, hwaits⟩
  case once =>
    have hsame : (s.threads.set j { t with phase := phase }).map (fun u => (u.manual, u.host)) =
        s.threads.map fun u => (u.manual, u.host) := map_set_same ht rfl
    have honce : (s.threads.map fun u => (u.manual, u.host)).Pairwise
        fun u v => v.1 = false → u.2 ≠ v.2 := List.pairwise_map.mpr h.once
    exact List.pairwise_map.mp (hsame ▸ honce)
  case probed =>
    intro host
    have hsame : (s.threads.set j { t with phase := phase }).map ScanThread.host =
        s.threads.map ScanThread.host := map_set_same ht rfl
    refine (h.probed host).trans ?_
    rw [← List.mem_map, ← List.mem_map, hsame]
  case rows =>
    intro w hw r hr
    obtain ⟨b, hb, heq⟩ := hrows w hw
    exact (h.rows b hb r (heq ▸ hr)).mono hreg fun _ => id
  case kept =>
    intro u hu devs hdone d hd
    rcases List.mem_or_eq_of_mem_set hu with hu | rfl
    · exact hreg _ (h.kept u hu devs hdone d hd)
    · exact hfound devs hdone d hd
  case known =>
    intro ad had
    rcases hknown ad had with had | ⟨devs, hphase, had⟩
    · obtain ⟨u, hu, devs, hdone, hin⟩ := h.known ad had
      exact ⟨u, hmem u hu _ hdone, devs, hdone, hin⟩
    · exact ⟨_, hself, devs, hphase, had⟩
  case shown =>
    intro u hu
    rw [hlen]
    rcases List.mem_or_eq_of_mem_set hu with hu | rfl
    · exact h.shown u hu
    · exact h.shown t (List.mem_of_getElem? ht)

end

/-! ### What is registered -/

theorem registered_foldl (devs agentDevs : List ScannedDev) (serial : CString) :
    (∃ ad ∈ devs.foldl register agentDevs, ad.serial = serial) ↔
      (∃ ad ∈ agentDevs, ad.serial = serial) ∨ ∃ ad ∈ devs, ad.serial = serial := by
  induction devs generalizing agentDevs with
  | nil => simp
  | cons d devs ih =>
    have hone : (∃ ad ∈ register agentDevs d, ad.serial = serial) ↔
        (∃ ad ∈ agentDevs, ad.serial = serial) ∨ d.serial = serial := by
      simp only [register, List.mem_cons, List.mem_filter, decide_eq_true_eq]
      constructor
      · rintro ⟨ad, rfl | ⟨had, -⟩, hs⟩
        · exact .inr hs
        · exact .inl ⟨ad, had, hs⟩
      · rintro (⟨ad, had, hs⟩ | hs)
        · by_cases hd : ad.serial = d.serial
          · exact ⟨d, .inl rfl, hd.symm.trans hs⟩
          · exact ⟨ad, .inr ⟨had, hd⟩, hs⟩
        · exact ⟨d, .inl rfl, hs⟩
    rw [List.foldl_cons, ih, hone, List.exists_mem_cons_iff, or_assoc]

theorem mem_foldl_register {devs agentDevs : List ScannedDev} {ad : ScannedDev}
    (h : ad ∈ devs.foldl register agentDevs) : ad ∈ agentDevs ∨ ad ∈ devs := by
  induction devs generalizing agentDevs with
  | nil => exact .inl h
  | cons d devs ih =>
    rw [List.foldl_cons] at h
    rcases ih h with h | h
    · rcases List.mem_cons.mp h with rfl | h
      · exact .inr List.mem_cons_self
      · exact .inl (List.mem_filter.mp h).1
    · exact .inr (List.mem_cons_of_mem d h)

/-! ### A callback -/

section

variable {j : Nat} {t : ScanThread} {devs : Option (List ScannedDev)} {msg : CString}

theorem Orderly.finish (h : s.Orderly) (ht : s.threads[j]? = some t)
    (hposted : t.phase = .posted devs msg) (out : Option CString) :
    (Scanning.finish adbAvailable t devs msg out
      { s with threads := s.threads.set j { t with phase := .done devs } }).Orderly := by
  have hrunning : ∀ devs, t.phase ≠ .done devs := fun _ hdone => nomatch hposted.symm.trans hdone
  have hknown : ∀ ad ∈ (devs.getD []).foldl register s.agentDevs, ad ∈ s.agentDevs ∨
      ∃ found, ScanPhase.done devs = .done (some found) ∧ ad ∈ found := by
    intro ad had
    refine (mem_foldl_register had).imp_right fun hin => ?_
    cases devs with
    | none => exact nomatch hin
    | some found => exact ⟨found, rfl, hin⟩
  have hreg : ∀ serial, s.registered serial = true →
      ∃ ad ∈ (devs.getD []).foldl register s.agentDevs, ad.serial = serial := fun serial hr =>
    (registered_foldl ..).mpr (.inl (registered_iff.mp hr))
  have hfound : ∀ found, ScanPhase.done devs = .done (some found) → ∀ d ∈ found,
      ∃ ad ∈ (devs.getD []).foldl register s.agentDevs, ad.serial = d.serial := by
    intro found heq d hd
    obtain rfl := ScanPhase.done.inj heq
    exact (registered_foldl ..).mpr (.inr ⟨d, hd, rfl⟩)
  have hwindow := h.shown t (List.mem_of_getElem? ht)
  unfold Scanning.finish
  dsimp only
  split
  case isFalse hm =>
    have hback : Orderly { s with
        agentDevs := (devs.getD []).foldl register s.agentDevs
        threads := s.threads.set j { t with phase := .done devs } } := by
      refine h.advance ht hrunning rfl (fun serial hr => registered_iff.mpr (hreg serial hr))
        (fun found heq d hd => registered_iff.mpr (hfound found heq d hd)) hknown
        (fun w hw => ⟨w, hw, rfl⟩) rfl fun i w hw => ?_
      rw [countP_set_same ht (by simp [waiting, hm]), h.waits i w hw]
    split
    · exact hback.populate hwindow out
    · exact hback
  case isTrue hm =>
    have hback : Orderly { s with
        agentDevs := (devs.getD []).foldl register s.agentDevs
        windows := s.windows.modify t.window fun w => { w with status := msg, sensitive := true }
        threads := s.threads.set j { t with phase := .done devs } } := by
      refine h.advance ht hrunning rfl (fun serial hr => registered_iff.mpr (hreg serial hr))
        (fun found heq d hd => registered_iff.mpr (hfound found heq d hd)) hknown
        (fun w hw => ?rows) (List.length_modify ..) fun i w hw => ?waits
      case rows =>
        rcases mem_modify_cases hw with hw | ⟨b, hb, rfl⟩
        · exact ⟨w, hw, rfl⟩
        · exact ⟨b, hb, rfl⟩
      case waits =>
        obtain ⟨b, hb, rfl⟩ := modify_eq_some hw
        by_cases hi : t.window = i
        · have hwaiting : waiting i t = true := by
            simp [waiting, hm, hi, hposted, ScanPhase.isDone]
          have hdone : waiting i { t with phase := .done devs } = false := by
            simp [waiting, ScanPhase.isDone]
          have hless := countP_set_false ht hwaiting hdone
          have hone := h.waits i b hb
          rw [if_pos hi, if_pos rfl]
          split at hone <;> omega
        · rw [if_neg hi, countP_set_same ht (by simp [waiting, hi]), h.waits i b hb]
    exact hback.populate (by rwa [List.length_modify]) out

/-- More threads that have found nothing yet. -/
theorem Labelled.grow (h : s.Labelled i) (hreg : s'.agentDevs = s.agentDevs)
    (hthreads : ∀ t ∈ s.threads, ∀ devs, t.phase = .done devs → t ∈ s'.threads)
    (hrows : ∀ w, s'.windows[i]? = some w → ∃ b, s.windows[i]? = some b ∧ w.rows = b.rows) :
    s'.Labelled i := by
  intro hfilled w hw r hr
  obtain ⟨b, hb, heq⟩ := hrows w hw
  rw [hreg]
  refine h (fun t ht devs hdone hne => ?_) b hb r (heq ▸ hr)
  exact hfilled t (hthreads t ht _ hdone) devs hdone hne

theorem Labelled.advance (h : s.Labelled i) (ht : s.threads[j]? = some t)
    (hrunning : ∀ devs, t.phase ≠ .done devs) {phase : ScanPhase} {agentDevs : List ScannedDev}
    {windows : List ChooserWindow}
    (hs : s' = { s with
      agentDevs := agentDevs, windows := windows
      threads := s.threads.set j { t with phase := phase } })
    (hrows : ∀ w, windows[i]? = some w → ∃ b, s.windows[i]? = some b ∧ w.rows = b.rows)
    (hdevs : (∃ found, phase = .done (some found) ∧ found ≠ []) ∧ t.window ≠ i ∨
      agentDevs = s.agentDevs) :
    s'.Labelled i := by
  subst hs
  rcases hdevs with ⟨⟨found, hphase, hfound⟩, hne⟩ | rfl
  · exact fun hfilled => absurd (hfilled _ (mem_set_self ht) found hphase hfound) hne
  · refine h.grow rfl (fun u hu devs hdone => mem_set_of_ne ht hu ?_) hrows
    exact fun hut => hrunning devs (hut ▸ hdone)

theorem Labelled.finish (h : ∀ i, s.Labelled i) (ht : s.threads[j]? = some t)
    (hposted : t.phase = .posted devs msg) (out : Option CString) (i : Nat) :
    (Scanning.finish adbAvailable t devs msg out
      { s with threads := s.threads.set j { t with phase := .done devs } }).Labelled i := by
  have hrunning : ∀ devs, t.phase ≠ .done devs := fun _ hdone => nomatch hposted.symm.trans hdone
  have hdevs : t.window ≠ i →
      (∃ found, ScanPhase.done devs = .done (some found) ∧ found ≠ []) ∧ t.window ≠ i ∨
        (devs.getD []).foldl register s.agentDevs = s.agentDevs := by
    intro hne
    rcases devs with _ | _ | ⟨d, found⟩
    · exact .inr rfl
    · exact .inr rfl
    · exact .inl ⟨⟨_, rfl, List.cons_ne_nil d found⟩, hne⟩
  unfold Scanning.finish
  dsimp only
  split
  case isFalse =>
    split
    case isTrue =>
      refine Labelled.populate (fun hne => ?_) out
      exact (h i).advance ht hrunning rfl (fun w hw => ⟨w, hw, rfl⟩) (hdevs (Ne.symm hne))
    case isFalse hsome =>
      refine (h i).advance ht hrunning rfl (fun w hw => ⟨w, hw, rfl⟩) (.inr ?_)
      rw [Option.isSome_iff_ne_none, not_not] at hsome
      rw [hsome]
      rfl
  case isTrue =>
    refine Labelled.populate (fun hne => ?_) out
    refine (h i).advance ht hrunning rfl (fun w hw => ?_) (hdevs (Ne.symm hne))
    obtain ⟨b, hb, rfl⟩ := modify_eq_some hw
    rw [if_neg (Ne.symm hne)]
    exact ⟨b, hb, rfl⟩

end

/-! ## A run -/

theorem answer_posted (adbAvailable : Bool) (t : ScanThread) (conn : Option (Timeline Char))
    (oks : List Bool) :
    ∃ devs msg, answer adbAvailable t conn oks = .posted devs msg := by
  unfold answer
  split <;> split <;> exact ⟨_, _, rfl⟩

theorem Orderly.answer (h : s.Orderly) {j : Nat} {t : ScanThread} (ht : s.threads[j]? = some t)
    (hrunning : t.phase = .running) (conn : Option (Timeline Char)) (oks : List Bool) :
    Orderly { s with
      threads := s.threads.set j { t with phase := Scanning.answer adbAvailable t conn oks } } := by
  obtain ⟨devs, msg, hans⟩ := answer_posted adbAvailable t conn oks
  rw [hans]
  refine h.advance ht (fun _ hdone => nomatch hrunning.symm.trans hdone) rfl (fun _ => id) nofun
    (fun ad had => .inl had) (fun w hw => ⟨w, hw, rfl⟩) rfl fun i w hw => ?_
  rw [countP_set_same ht (by simp [waiting, hrunning, ScanPhase.isDone]), h.waits i w hw]

theorem Orderly.scanStart (h : s.Orderly) {w : ChooserWindow} (hw : s.windows[i]? = some w)
    (hsensitive : w.sensitive = true) (text : CString) : (s.scanStart i text).Orderly := by
  have hmem : ∀ ip host : CString, host ∈ (if s.isProbed ip then s.probedHosts
      else ip :: s.probedHosts) ↔ host ∈ s.probedHosts ∨ ip = host := by
    intro ip host
    split
    case isTrue hin => exact ⟨.inl, fun hh => hh.elim id fun heq => heq ▸ isProbed_iff.mp hin⟩
    case isFalse => rw [List.mem_cons, or_comm, eq_comm]
  unfold Scanning.scanStart
  split
  case isTrue => exact h
  case isFalse =>
    generalize scanTarget text = target
    obtain ⟨ip, port⟩ := target
    have hthreads : ∀ {u : ScanThread} {devs}, u ∈ s.threads ++ [⟨true, i, ip, port, .running⟩] →
        u.phase = .done devs → u ∈ s.threads := by
      intro u devs hu hdone
      rcases List.mem_append.mp hu with hu | hu
      · exact hu
      · rw [List.mem_singleton.mp hu] at hdone
        exact nomatch hdone
    refine ⟨?once, ?probed, ?rows, ?kept, ?known, ?shown, ?waits⟩
    case once =>
      refine List.pairwise_append.mpr ⟨h.once, List.pairwise_singleton _ _, fun t _ u hu hman => ?_⟩
      rw [List.mem_singleton.mp hu] at hman
      exact nomatch hman
    case probed =>
      intro host
      refine (hmem _ host).trans ((or_congr_left (h.probed host)).trans ?_)
      simp only [List.mem_append, List.mem_singleton, or_and_right, exists_or, exists_eq_left]
    case rows =>
      intro u hu r hr
      have hgrown : ∀ host ∈ s.probedHosts, host ∈ (if s.isProbed ip then s.probedHosts
          else ip :: s.probedHosts) := fun host hh => (hmem ip host).mpr (.inl hh)
      rcases mem_modify_cases hu with hu | ⟨b, hb, rfl⟩
      · exact (h.rows u hu r hr).mono (fun _ => id) hgrown
      · exact (h.rows b hb r hr).mono (fun _ => id) hgrown
    case kept => exact fun t ht devs hdone => h.kept t (hthreads ht hdone) devs hdone
    case known =>
      intro ad had
      obtain ⟨t, ht, hdone⟩ := h.known ad had
      exact ⟨t, List.mem_append_left _ ht, hdone⟩
    case shown =>
      intro t ht
      refine Nat.lt_of_lt_of_eq ?_ (List.length_modify ..).symm
      rcases List.mem_append.mp ht with ht | ht
      · exact h.shown t ht
      · rw [List.mem_singleton.mp ht]
        exact (List.getElem?_eq_some_iff.mp hw).1
    case waits =>
      intro k u hu
      have hcount := h.waits k
      rw [List.countP_append, List.countP_singleton]
      obtain ⟨b, hb, rfl⟩ := modify_eq_some hu
      by_cases hk : i = k
      · subst hk
        obtain rfl : w = b := Option.some.inj (hw.symm.trans hb)
        rw [hcount w hb, hsensitive]
        simp [waiting, ScanPhase.isDone]
      · rw [hcount b hb, if_neg hk]
        simp [waiting, hk]

theorem Orderly.chooserShow (h : s.Orderly) (out : Option CString) :
    (Scanning.populate adbAvailable s.windows.length out
      { s with windows := s.windows ++ [⟨[], none, [], true⟩] }).Orderly := by
  have hshown : Orderly { s with windows := s.windows ++ [⟨[], none, [], true⟩] } := by
    refine ⟨h.once, h.probed, ?rows, h.kept, h.known, ?shown, ?waits⟩
    case rows =>
      intro w hw r hr
      rcases List.mem_append.mp hw with hw | hw
      · exact h.rows w hw r hr
      · rw [List.mem_singleton.mp hw] at hr
        exact nomatch hr
    case shown =>
      intro t ht
      rw [List.length_append]
      exact Nat.lt_add_right _ (h.shown t ht)
    case waits =>
      intro i w hw
      by_cases hi : i < s.windows.length
      · rw [List.getElem?_append_left hi] at hw
        exact h.waits i w hw
      · rw [List.getElem?_append_right (Nat.le_of_not_lt hi)] at hw
        obtain rfl := List.mem_singleton.mp (List.mem_of_getElem? hw)
        refine List.countP_eq_zero.mpr fun t ht hwaiting => hi ?_
        have hwindow : t.window = i := by
          simp only [waiting, Bool.and_eq_true, decide_eq_true_eq] at hwaiting
          exact hwaiting.1.2
        exact hwindow ▸ h.shown t ht
  exact hshown.populate (by simp) out

theorem Orderly.step (h : s.Orderly) {a : ScanAct}
    (hs : scanStep base adbAvailable s a = some s') : s'.Orderly := by
  cases a with
  | chooserShow out =>
    obtain rfl := Option.some.inj hs
    exact h.chooserShow out
  | refresh i out =>
    obtain ⟨hi, ⟨⟩⟩ := Option.ite_none_right_eq_some.mp hs
    exact h.populate hi out
  | scan i text =>
    obtain ⟨w, hw, rfl⟩ := Option.map_eq_some_iff.mp hs
    obtain ⟨hw, hsensitive⟩ := Option.filter_eq_some_iff.mp hw
    exact h.scanStart hw hsensitive text
  | answer j conn oks =>
    obtain ⟨t, ht, rfl⟩ := Option.map_eq_some_iff.mp hs
    obtain ⟨ht, hrunning⟩ := Option.filter_eq_some_iff.mp ht
    exact h.answer ht (of_decide_eq_true hrunning) conn oks
  | callback j out =>
    obtain ⟨t, ht, hs⟩ := Option.bind_eq_some_iff.mp hs
    split at hs
    case h_1 devs msg hposted =>
      obtain rfl := Option.some.inj hs
      exact h.finish ht hposted out
    case h_2 => exact nomatch hs
  | row i k sel created =>
    obtain ⟨w, hw, hs⟩ := Option.bind_eq_some_iff.mp hs
    obtain ⟨r, hr, rfl⟩ := Option.map_eq_some_iff.mp hs
    split
    · exact ⟨h.once, h.probed, h.rows, h.kept, h.known, h.shown, h.waits⟩
    · exact h
  | close n =>
    obtain rfl := Option.some.inj hs
    exact ⟨h.once, h.probed, h.rows, h.kept, h.known, h.shown, h.waits⟩

theorem Labelled.step (h : ∀ i, s.Labelled i) {a : ScanAct}
    (hs : scanStep base adbAvailable s a = some s') (i : Nat) : s'.Labelled i := by
  cases a with
  | chooserShow out =>
    obtain rfl := Option.some.inj hs
    refine Labelled.populate (s := { s with windows := s.windows ++ [⟨[], none, [], true⟩] })
      (fun hne => (h i).grow rfl (fun t ht _ _ => ht) fun w hw => ?_) out
    have hi : i < s.windows.length := by
      have hlt := (List.getElem?_eq_some_iff.mp hw).1
      rw [List.length_append, List.length_singleton] at hlt
      omega
    rw [List.getElem?_append_left hi] at hw
    exact ⟨w, hw, rfl⟩
  | refresh j out =>
    obtain ⟨hj, ⟨⟩⟩ := Option.ite_none_right_eq_some.mp hs
    exact Labelled.populate (fun _ => h i) out
  | scan j text =>
    obtain ⟨w, hw, rfl⟩ := Option.map_eq_some_iff.mp hs
    unfold scanStart
    split
    case isTrue => exact h i
    case isFalse =>
      refine (h i).grow rfl (fun t ht _ _ => List.mem_append_left _ ht) fun w hw => ?_
      obtain ⟨b, hb, rfl⟩ := modify_eq_some hw
      refine ⟨b, hb, ?_⟩
      split <;> rfl
  | answer j conn oks =>
    obtain ⟨t, ht, rfl⟩ := Option.map_eq_some_iff.mp hs
    obtain ⟨ht, hrunning⟩ := Option.filter_eq_some_iff.mp ht
    have hrunning := of_decide_eq_true hrunning
    refine (h i).grow rfl (fun u hu devs hdone => ?_) fun w hw => ⟨w, hw, rfl⟩
    refine mem_set_of_ne ht hu ?_
    rintro rfl
    exact nomatch hrunning.symm.trans hdone
  | callback j out =>
    obtain ⟨t, ht, hs⟩ := Option.bind_eq_some_iff.mp hs
    split at hs
    case h_1 devs msg hposted =>
      obtain rfl := Option.some.inj hs
      exact Labelled.finish h ht hposted out i
    case h_2 => exact nomatch hs
  | row j k sel created =>
    obtain ⟨w, hw, hs⟩ := Option.bind_eq_some_iff.mp hs
    obtain ⟨r, hr, rfl⟩ := Option.map_eq_some_iff.mp hs
    split
    · exact (h i).grow rfl (fun t ht _ _ => ht) fun w hw => ⟨w, hw, rfl⟩
    · exact h i
  | close n =>
    obtain rfl := Option.some.inj hs
    exact (h i).grow rfl (fun t ht _ _ => ht) fun w hw => ⟨w, hw, rfl⟩

theorem orderly_init : Orderly ⟨[], [], [], [], []⟩ := by
  constructor <;> simp

theorem orderly_run {as : List ScanAct}
    (h : (scanLts base adbAvailable).run (scanLts base adbAvailable).init as = some s) :
    s.Orderly ∧ ∀ i, s.Labelled i := by
  refine Lts.invariant (I := fun s : Scanning => s.Orderly ∧ ∀ i, s.Labelled i)
    (fun _ _ _ hI hs => ⟨hI.1.step hs, Labelled.step hI.2 hs⟩)
    ⟨orderly_init, fun i _ w hw => nomatch hw⟩ h

/-! ## A row -/

theorem agentDev_none (h : s.app.agentDev serial = none) : s.registered serial = false := by
  rw [App.agentDev, app, List.find?_map, Option.map_eq_none_iff, List.find?_eq_none] at h
  refine Bool.eq_false_iff.mpr fun hr => ?_
  obtain ⟨ad, had, heq⟩ := registered_iff.mp hr
  exact h ad had (decide_eq_true heq)

/-- A row that is opened straight over the network has its host as the host of a probe. -/
theorem probeHost_of_rowAddr {app : App} (hagent : app.agentDev serial = none)
    (haddr : app.rowAddr serial = some host) : probeHost serial = some host := by
  unfold App.rowAddr at haddr
  rw [hagent] at haddr
  simp only at haddr
  split at haddr
  case isFalse => exact nomatch haddr
  case isTrue =>
    split at haddr
    case h_2 => exact nomatch haddr
    case h_1 ip port hsplit =>
      obtain ⟨hfits, ⟨⟩⟩ := Option.ite_none_right_eq_some.mp haddr
      rw [probeHost, hsplit]
      exact if_neg (by omega)

/-- **The scans keep the chooser in order**, in every interleaving of the user, the scan
threads and their callbacks, whatever adb and the agents answer. A probe is of a host for
which no thread was started before. A row that is opened straight over the network is of
a host that was asked, and no agent that has come back has its device. What is registered
an agent has said. The rows of a window are labelled by what is registered, where the
agents were found from that window. A window's entry is sensitive if and only if no scan
of it is under way. -/
theorem scans_orderly {as : List ScanAct}
    (h : (scanLts base adbAvailable).run (scanLts base adbAvailable).init as = some s) :
    (s.threads.Pairwise fun t u => u.manual = false → t.host ≠ u.host) ∧
      (∀ w ∈ s.windows, ∀ r ∈ w.rows, ∀ host, s.app.agentDev r.serial = none →
        s.app.rowAddr r.serial = some host → (∃ t ∈ s.threads, t.host = host) ∧
          ∀ t ∈ s.threads, ∀ devs, t.phase = .done (some devs) → ∀ d ∈ devs, d.serial ≠ r.serial) ∧
      (∀ ad ∈ s.agentDevs, ∃ t ∈ s.threads, ∃ devs, t.phase = .done (some devs) ∧ ad ∈ devs) ∧
      (∀ i w, s.windows[i]? = some w →
        (∀ t ∈ s.threads, ∀ devs, t.phase = .done (some devs) → devs ≠ [] → t.window = i) →
        ∀ r ∈ w.rows, r.label = connLabel s.agentDevs r.serial) ∧
      ∀ i w, s.windows[i]? = some w → (w.sensitive = true ↔
        ∀ t ∈ s.threads, t.manual = true → t.window = i → t.phase.isDone = true) := by
  obtain ⟨hI, hlabelled⟩ := orderly_run h
  refine ⟨hI.once, ?direct, hI.known, fun i w hw hfilled => hlabelled i hfilled w hw, ?waits⟩
  case direct =>
    intro w hw r hr host hagent haddr
    have hunknown := agentDev_none hagent
    have hasked := hI.rows w hw r hr host (probeHost_of_rowAddr hagent haddr)
    rw [hunknown] at hasked
    refine ⟨(hI.probed host).mp (hasked.resolve_left Bool.false_ne_true), ?_⟩
    intro t ht devs hdone d hd heq
    have hknown := hI.kept t ht devs hdone d hd
    rw [heq, hunknown] at hknown
    exact Bool.false_ne_true hknown
  case waits =>
    intro i w hw
    have hcount := hI.waits i w hw
    have hnone : s.threads.countP (waiting i) = 0 ↔
        ∀ t ∈ s.threads, t.manual = true → t.window = i → t.phase.isDone = true := by
      rw [List.countP_eq_zero]
      refine forall₂_congr fun t ht => ?_
      simp only [waiting, Bool.and_eq_true, decide_eq_true_eq, Bool.not_eq_true', not_and,
        Bool.not_eq_false, and_imp]
    rw [← hnone, hcount]
    cases w.sensitive <;> simp

/-- An agent that is found by a probe of the host that adb has. -/
def foundRun : List ScanAct :=
  let out := "List of devices attached\n10.0.0.2:15553 device model:M\n\n".toList
  [.chooserShow (some out), .scan 0 "10.0.0.3:9999".toList,
    .answer 0 (some [(3, .bytes "RCAGENT 1\n15553\tUSB\tS\tM\t27183\n".toList), (5, .close)]) [],
    .callback 0 (some out), .row 0 0 plainSettings true]

theorem scans_orderly_found :
    ∃ s, (scanLts noEnv true).run (scanLts noEnv true).init foundRun = some s ∧
      s.windows.map (fun w => w.rows.map ChooserRow.label) = [["USB (agent)".toList]] ∧
      s.probedHosts = ["10.0.0.3".toList, "10.0.0.2".toList] ∧
      s.threads.Pairwise fun t u => u.manual = false → t.host ≠ u.host := by
  have hruns : ((scanLts noEnv true).run (scanLts noEnv true).init foundRun).any (fun s =>
      decide (s.windows.map (fun w => w.rows.map ChooserRow.label) = [["USB (agent)".toList]]) &&
        decide (s.probedHosts = ["10.0.0.3".toList, "10.0.0.2".toList])) = true := by
    decide +kernel
  obtain ⟨s, hs, hend⟩ := (Option.any_eq_true _ _).mp hruns
  simp only [Bool.and_eq_true, decide_eq_true_eq] at hend
  exact ⟨s, hs, hend.1, hend.2, (scans_orderly hs).1⟩

/-! ## Without the user -/

/-- A thread that ends, or a callback while adb has no other hosts than these. -/
def Alone (hosts : Finset CString) : ScanAct → Prop
  | .answer .. => True
  | .callback _ out =>
    ∀ d ∈ listAdbDevices out, ∀ host, probeHost d.serial = some host → host ∈ hosts
  | _ => False

/-- The steps a thread still has. -/
def load (t : ScanThread) : Nat :=
  match t.phase with
  | .running => 2
  | .posted .. => 1
  | .done _ => 0

/-- The steps that are left: those of the threads, and of the probes that may come. -/
def left (hosts : Finset CString) (s : Scanning) : Nat :=
  2 * (hosts.filter fun host => s.isProbed host = false).card + (s.threads.map load).sum

section

variable {hosts : Finset CString}

theorem Probes.card_le {serials started : List CString} (h : Probes i serials started s s')
    (hhosts : ∀ host ∈ started, host ∈ hosts) :
    (hosts.filter fun host => s'.isProbed host = false).card + started.length ≤
      (hosts.filter fun host => s.isProbed host = false).card := by
  have hfresh : ∀ {s : Scanning} {host : CString}, s.isProbed host = false ↔
      host ∉ s.probedHosts := fun {_ _} => by
    rw [← isProbed_iff, Bool.not_eq_true]
  have hdisjoint : Disjoint (hosts.filter fun host => s'.isProbed host = false)
      started.toFinset := by
    rw [Finset.disjoint_left]
    intro host hhost hstarted
    refine hfresh.mp (Finset.mem_filter.mp hhost).2 ?_
    exact (h.probedHosts host).mpr (.inr (List.mem_toFinset.mp hstarted))
  rw [← List.toFinset_card_of_nodup h.nodup, ← Finset.card_union_of_disjoint hdisjoint]
  refine Finset.card_le_card fun host hhost => Finset.mem_filter.mpr ?_
  rcases Finset.mem_union.mp hhost with hhost | hhost
  · obtain ⟨hin, hnot⟩ := Finset.mem_filter.mp hhost
    refine ⟨hin, hfresh.mpr fun hprobed => hfresh.mp hnot ?_⟩
    exact (h.probedHosts host).mpr (.inl hprobed)
  · have hstarted := List.mem_toFinset.mp hhost
    exact ⟨hhosts host hstarted, hfresh.mpr (h.fresh host hstarted)⟩

/-- Every probe that filling a list starts takes a host from those that may come. -/
theorem left_populate (i : Nat) {out : Option CString}
    (hhosts : ∀ d ∈ listAdbDevices out, ∀ host, probeHost d.serial = some host → host ∈ hosts) :
    (s.populate adbAvailable i out).left hosts ≤ s.left hosts := by
  obtain ⟨devs, note, started, hdevs, hp⟩ := populate_spec adbAvailable i out s
  have hstarted : ∀ host ∈ started, host ∈ hosts := by
    intro host hhost
    obtain ⟨serial, hserial, hprobe⟩ := hp.from_serials host hhost
    obtain ⟨d, hd, rfl⟩ := List.mem_map.mp hserial
    exact hhosts d (hdevs d hd) host hprobe
  have hcard := hp.card_le hstarted
  have hload : (started.map (probe i)).map load = List.replicate started.length 2 := by
    rw [List.map_map]
    exact List.map_const'
  have hsum : ((s.populate adbAvailable i out).threads.map load).sum =
      (s.threads.map load).sum + 2 * started.length := by
    rw [hp.threads, List.map_append, List.sum_append, hload]
    simp [Nat.mul_comm]
  have hprobed : (hosts.filter fun host => isProbed { s with
      windows := s.windows.modify i fun w =>
        { w with rows := rowsOf s.agentDevs devs, note := note } } host = false) =
      hosts.filter fun host => s.isProbed host = false := rfl
  rw [hprobed] at hcard
  unfold left
  omega

theorem load_set {l : List ScanThread} {j : Nat} {t t' : ScanThread} (ht : l[j]? = some t) :
    ((l.set j t').map load).sum + load t = (l.map load).sum + load t' := by
  induction l generalizing j with
  | nil => exact nomatch ht
  | cons u l ih =>
    cases j with
    | zero =>
      obtain rfl := Option.some.inj ht
      simp only [List.set_cons_zero, List.map_cons, List.sum_cons]
      omega
    | succ j =>
      have hrest := ih (List.getElem?_cons_succ ▸ ht)
      simp only [List.set_cons_succ, List.map_cons, List.sum_cons]
      omega

theorem left_set {j : Nat} {t t' : ScanThread} {agentDevs : List ScannedDev}
    {windows : List ChooserWindow} (ht : s.threads[j]? = some t) (hload : load t' < load t) :
    left hosts { s with
      agentDevs := agentDevs, windows := windows, threads := s.threads.set j t' } <
        s.left hosts := by
  have hset : ((s.threads.set j t').map load).sum + load t =
      (s.threads.map load).sum + load t' := load_set ht
  have hsum : ((s.threads.set j t').map load).sum < (s.threads.map load).sum := by omega
  exact Nat.add_lt_add_left hsum _

/-- Each step takes one of those that are left. -/
theorem left_step {a : ScanAct} (ha : Alone hosts a)
    (hs : scanStep base adbAvailable s a = some s') : s'.left hosts < s.left hosts := by
  cases a with
  | answer j conn oks =>
    obtain ⟨t, ht, rfl⟩ := Option.map_eq_some_iff.mp hs
    obtain ⟨ht, hrunning⟩ := Option.filter_eq_some_iff.mp ht
    obtain ⟨devs, msg, hans⟩ := answer_posted adbAvailable t conn oks
    refine left_set ht ?_
    rw [load, load, of_decide_eq_true hrunning, hans]
    exact Nat.lt_succ_self 1
  | callback j out =>
    obtain ⟨t, ht, hs⟩ := Option.bind_eq_some_iff.mp hs
    split at hs
    case h_2 => exact nomatch hs
    case h_1 devs msg hposted =>
      obtain rfl := Option.some.inj hs
      have hload : load { t with phase := .done devs } < load t := by
        rw [load, load, hposted]
        exact Nat.zero_lt_one
      unfold Scanning.finish
      dsimp only
      split
      · exact Nat.lt_of_le_of_lt (left_populate _ ha) (left_set ht hload)
      · split
        · exact Nat.lt_of_le_of_lt (left_populate _ ha) (left_set ht hload)
        · exact left_set ht hload
  | _ => exact ha.elim

theorem exists_alone (h : ¬∀ t ∈ s.threads, t.phase.isDone = true) :
    ∃ a s', Alone hosts a ∧ scanStep base adbAvailable s a = some s' := by
  simp only [not_forall] at h
  obtain ⟨t, ht, hnot⟩ := h
  obtain ⟨j, hj⟩ := List.mem_iff_getElem?.mp ht
  cases hphase : t.phase with
  | running =>
    have hsome : (scanStep base adbAvailable s (.answer j none [])).isSome = true := by
      simp [scanStep, hj, hphase]
    obtain ⟨s', hs⟩ := Option.isSome_iff_exists.mp hsome
    exact ⟨.answer j none [], s', trivial, hs⟩
  | posted devs msg =>
    have hsome : (scanStep base adbAvailable s (.callback j none)).isSome = true := by
      simp [scanStep, hj, hphase]
    obtain ⟨s', hs⟩ := Option.isSome_iff_exists.mp hsome
    have hnone : Alone hosts (.callback j none) := fun _ hd => nomatch hd
    exact ⟨.callback j none, s', hnone, hs⟩
  | done devs =>
    rw [hphase] at hnot
    exact absurd rfl hnot

/-- **The chooser comes to rest.** A scan that comes back fills a list, which may start
probes, which come back and fill it again; but while adb has no other hosts than these,
whatever else it prints and whatever the agents answer, the threads and their callbacks
take no more than `left` steps from any state a run has come to, and can take them until
every thread has come back and every window can scan again. -/
theorem cascade_ends {as : List ScanAct}
    (h : (scanLts base adbAvailable).run (scanLts base adbAvailable).init as = some s)
    (hosts : Finset CString) :
    (∀ more s', (∀ a ∈ more, Alone hosts a) → (scanLts base adbAvailable).run s more = some s' →
        more.length + s'.left hosts ≤ s.left hosts) ∧
      ∃ more s', (scanLts base adbAvailable).run s more = some s' ∧ (∀ a ∈ more, Alone hosts a) ∧
        (∀ t ∈ s'.threads, t.phase.isDone = true) ∧ ∀ w ∈ s'.windows, w.sensitive = true := by
  constructor
  · intro more s' hmore hrun
    exact Lts.length_le (left hosts) (fun _ _ _ ha hs => left_step ha hs)
      (Lts.meets_of_forall (P := Alone hosts) s hmore) hrun
  · obtain ⟨more, s', hrun, hI, hdone, hmore, -⟩ := Lts.leads_to (L := scanLts base adbAvailable)
      (I := Orderly) (Q := fun s => ∀ t ∈ s.threads, t.phase.isDone = true) (P := Alone hosts)
      (left hosts) (fun s hI hnot => by
        obtain ⟨a, s', ha, hs⟩ := exists_alone hnot
        exact ⟨a, s', ha, hs, hI.step hs, left_step ha hs⟩) (orderly_run h).1
    refine ⟨more, s', hrun, hmore, hdone, fun w hw => ?_⟩
    obtain ⟨i, hi⟩ := List.mem_iff_getElem?.mp hw
    have hcount := hI.waits i w hi
    have hnone : s'.threads.countP (waiting i) = 0 := by
      refine List.countP_eq_zero.mpr fun t ht hwaiting => ?_
      rw [waiting, hdone t ht, Bool.not_true, Bool.and_false] at hwaiting
      exact Bool.false_ne_true hwaiting
    rw [hnone] at hcount
    cases hsensitive : w.sensitive with
    | true => rfl
    | false =>
      rw [hsensitive] at hcount
      exact nomatch hcount

end

def secondHost : CString := "10.0.0.4".toList

/-- The probe of the first host finds an agent; adb has a second host when the list is filled
again, and its probe comes back too. -/
def secondRun : List ScanAct :=
  [.answer 0 (some [(3, .bytes "RCAGENT 1\n15553\tUSB\tS\tM\t27183\n".toList), (5, .close)]) [],
    .callback 0 (some "List of devices attached\n10.0.0.4:5555 device\n\n".toList),
    .answer 1 none [], .callback 1 none]

/-- One host is being asked, and there may be another: four steps, and they are taken. -/
theorem cascade_ends_shown :
    ∃ s s', (scanLts noEnv true).run (scanLts noEnv true).init
        [.chooserShow (some "List of devices attached\n10.0.0.2:15553 device\n\n".toList)] =
          some s ∧ (scanLts noEnv true).run s secondRun = some s' ∧ s'.threads.length = 2 ∧
      s.left {secondHost} = 4 ∧ secondRun.length + s'.left {secondHost} ≤ s.left {secondHost} ∧
      ∃ more s', (scanLts noEnv true).run s more = some s' ∧ (∀ a ∈ more, Alone {secondHost} a) ∧
        (∀ t ∈ s'.threads, t.phase.isDone = true) ∧ ∀ w ∈ s'.windows, w.sensitive = true := by
  have hruns : ((scanLts noEnv true).run (scanLts noEnv true).init
      [.chooserShow (some "List of devices attached\n10.0.0.2:15553 device\n\n".toList)]).any
      (fun s => decide ((s.threads.map load).sum = 2) && !s.isProbed secondHost &&
        ((scanLts noEnv true).run s secondRun).any fun s' => decide (s'.threads.length = 2)) =
      true := by decide +kernel
  have hlisted : (listAdbDevices
      (some "List of devices attached\n10.0.0.4:5555 device\n\n".toList)).all
      (fun d => (probeHost d.serial).all fun host => decide (host = secondHost)) = true := by
    decide +kernel
  obtain ⟨s, hs, hthen⟩ := (Option.any_eq_true _ _).mp hruns
  simp only [Bool.and_eq_true, decide_eq_true_eq, Bool.not_eq_true'] at hthen
  obtain ⟨⟨hload, hnew⟩, hmore⟩ := hthen
  obtain ⟨s', hs', htwo⟩ := (Option.any_eq_true _ _).mp hmore
  have halone : ∀ a ∈ secondRun, Alone {secondHost} a := by
    rw [secondRun, List.forall_mem_cons, List.forall_mem_cons, List.forall_mem_cons,
      List.forall_mem_singleton]
    refine ⟨trivial, fun d hd host hhost => ?_, trivial, fun d hd => nomatch hd⟩
    have hhosts := List.all_eq_true.mp hlisted d hd
    rw [hhost] at hhosts
    exact Finset.mem_singleton.mpr (of_decide_eq_true hhosts)
  obtain ⟨hbound, hend⟩ := cascade_ends hs {secondHost}
  refine ⟨s, s', hs, hs', of_decide_eq_true htwo, ?_, hbound secondRun s' halone hs', hend⟩
  rw [left, hload, Finset.filter_singleton, if_pos hnew]
  rfl

/-! ## What the sessions see -/

/-- A callback registers, a row is activated, a window of a session is closed; the
sessions see nothing else. -/
def uiMove (s : Scanning) : ScanAct → Option UiAct
  | .callback j _ =>
    s.threads[j]?.bind fun t =>
      match t.phase with
      | .posted devs _ => some (.register ((devs.getD []).map (·.toAgentDev)))
      | _ => none
  | .row i k sel created =>
    s.windows[i]?.bind fun w => w.rows[k]?.map fun r => .activate r.serial sel created
  | .close n => some (.close n)
  | _ => none

theorem app_populate (i : Nat) (out : Option CString) (s : Scanning) :
    (s.populate adbAvailable i out).app = s.app := by
  obtain ⟨devs, note, started, -, hp⟩ := populate_spec adbAvailable i out s
  rw [app, hp.agentDevs, hp.sessions]
  rfl

theorem foldl_register_app (devs agentDevs : List ScannedDev) (sessions : List PortSession) :
    (devs.map (·.toAgentDev)).foldl App.register ⟨agentDevs.map (·.toAgentDev), sessions⟩ =
      ⟨(devs.foldl register agentDevs).map (·.toAgentDev), sessions⟩ := by
  induction devs generalizing agentDevs with
  | nil => rfl
  | cons d devs ih =>
    have hone : App.register ⟨agentDevs.map (·.toAgentDev), sessions⟩ d.toAgentDev =
        ⟨(register agentDevs d).map (·.toAgentDev), sessions⟩ := by
      rw [App.register, register, List.map_cons, List.filter_map]
      rfl
    rw [List.map_cons, List.foldl_cons, List.foldl_cons, hone]
    exact ih (register agentDevs d)

theorem app_finish (t : ScanThread) (devs : Option (List ScannedDev)) (msg : CString)
    (out : Option CString) (s : Scanning) :
    (Scanning.finish adbAvailable t devs msg out s).app =
      ((devs.getD []).map (·.toAgentDev)).foldl App.register s.app := by
  have hfold := foldl_register_app (devs.getD []) s.agentDevs s.sessions
  refine Eq.trans ?_ hfold.symm
  unfold Scanning.finish
  dsimp only
  split
  · exact app_populate ..
  · split
    · exact app_populate ..
    · rfl

theorem step_app {a : ScanAct} (hs : scanStep base adbAvailable s a = some s') :
    (uiMove s a = none ∧ s'.app = s.app) ∨
      ∃ b, uiMove s a = some b ∧ uiStep base s.app b = some s'.app := by
  cases a with
  | chooserShow out =>
    obtain rfl := Option.some.inj hs
    exact .inl ⟨rfl, app_populate ..⟩
  | refresh i out =>
    obtain ⟨hi, ⟨⟩⟩ := Option.ite_none_right_eq_some.mp hs
    exact .inl ⟨rfl, app_populate ..⟩
  | scan i text =>
    obtain ⟨w, hw, rfl⟩ := Option.map_eq_some_iff.mp hs
    refine .inl ⟨rfl, ?_⟩
    unfold scanStart
    split <;> rfl
  | answer j conn oks =>
    obtain ⟨t, ht, rfl⟩ := Option.map_eq_some_iff.mp hs
    exact .inl ⟨rfl, rfl⟩
  | callback j out =>
    obtain ⟨t, ht, hs⟩ := Option.bind_eq_some_iff.mp hs
    split at hs
    case h_2 => exact nomatch hs
    case h_1 devs msg hposted =>
      obtain rfl := Option.some.inj hs
      refine .inr ⟨.register ((devs.getD []).map (·.toAgentDev)), ?_, ?_⟩
      · rw [uiMove, ht, Option.bind_some, hposted]
      · rw [uiStep, app_finish]
        rfl
  | row i k sel created =>
    obtain ⟨w, hw, hs⟩ := Option.bind_eq_some_iff.mp hs
    obtain ⟨r, hr, rfl⟩ := Option.map_eq_some_iff.mp hs
    refine .inr ⟨.activate r.serial sel created, ?_, ?_⟩
    · rw [uiMove, hw, Option.bind_some, hr]
      rfl
    · cases created <;> rfl
  | close n =>
    obtain rfl := Option.some.inj hs
    exact .inr ⟨.close n, rfl, rfl⟩

/-- The chooser with its threads does to the sessions what its UI actions do. -/
def refines (base : Base) (adbAvailable : Bool) :
    Refinement (scanLts base adbAvailable) (uiLts base) where
  abs := app
  move := uiMove
  init := rfl
  quiet s a s' hs hmove := by
    rcases step_app hs with ⟨-, happ⟩ | ⟨b, hb, -⟩
    · exact happ
    · exact nomatch hmove.symm.trans hb
  step s a s' b hs hmove := by
    rcases step_app hs with ⟨hnone, -⟩ | ⟨b', hb', hstep⟩
    · exact nomatch hmove.symm.trans hnone
    · obtain rfl := Option.some.inj (hmove.symm.trans hb')
      exact hstep

/-- **The ports stay apart while the scans run.** Whatever the scans register and when,
no two live sessions of a device listen on the same port of it, as long as no row is
activated in one of the situations of `Crossed`. -/
theorem scanning_ports_apart {as : List ScanAct}
    (hC : (scanLts base adbAvailable).Meets (fun s a => ∀ b ∈ uiMove s a, NotCrossed s.app b)
      (scanLts base adbAvailable).init as)
    (h : (scanLts base adbAvailable).run (scanLts base adbAvailable).init as = some s) :
    s.app.Apart := by
  obtain ⟨bs, hrun, hmeets⟩ := (refines base adbAvailable).run (D := NotCrossed)
    (fun s a b hC hb => hC b hb) hC h
  have hkept : Kept s.app := Lts.invariant_on (fun app b app' hkept hC hstep =>
    ⟨(hkept.step_iff hstep).1, (hkept.step_iff hstep).2.mpr hC⟩) (@kept_init base) hmeets hrun
  exact hkept.apart

/-- No row, or one of a device over its agent, whose sessions are all over it. -/
def overAgent (app : App) : UiAct → Bool
  | .activate serial _ _ =>
    (app.agentDev serial).isSome && (app.rowAddr serial).all (fun addr => !addr.contains ':') &&
      app.sessions.all fun t => decide (0 ≤ t.streamK)
  | _ => true

theorem notCrossed_overAgent {app : App} {b : UiAct} (h : overAgent app b = true) :
    NotCrossed app b := by
  cases b with
  | activate serial sel created =>
    simp only [overAgent, Bool.and_eq_true] at h
    obtain ⟨⟨hagent, hcolon⟩, hstream⟩ := h
    intro _ hcrossed
    cases hcrossed with
    | stream ad k t _ _ _ _ _ _ ht _ hneg =>
      have hk := of_decide_eq_true (List.all_eq_true.mp hstream t ht)
      omega
    | lan host port i t hnone =>
      rw [hnone] at hagent
      exact Bool.noConfusion hagent
    | given addr host port t haddr hmem =>
      rw [haddr] at hcolon
      simp [hmem] at hcolon
  | register ads => trivial
  | close n => trivial

/-- The device of the agent is opened once more. -/
def foundTwice : List ScanAct := foundRun ++ [.row 0 0 plainSettings true]

/-- Two sessions of a device over its agent. -/
theorem scanning_ports_apart_found :
    ∃ s, (scanLts noEnv true).run (scanLts noEnv true).init foundTwice = some s ∧
      s.sessions.map PortSession.serialOwned =
        [some "10.0.0.2:15553".toList, some "10.0.0.2:15553".toList] ∧
      s.sessions.map PortSession.torn = [false, false] ∧
      s.sessions.map PortSession.listenPort = [some 27184, some 27183] ∧ s.app.Apart := by
  have hruns : ((scanLts noEnv true).run (scanLts noEnv true).init foundTwice).any (fun s =>
      decide (s.sessions.map PortSession.serialOwned =
        [some "10.0.0.2:15553".toList, some "10.0.0.2:15553".toList]) &&
      decide (s.sessions.map PortSession.torn = [false, false]) &&
      decide (s.sessions.map PortSession.listenPort = [some 27184, some 27183])) = true := by
    decide +kernel
  have hover : (scanLts noEnv true).Meets
      (fun s a => (uiMove s a).all (overAgent s.app) = true) (scanLts noEnv true).init foundTwice := by
    decide +kernel
  obtain ⟨s, hs, hend⟩ := (Option.any_eq_true _ _).mp hruns
  simp only [Bool.and_eq_true, decide_eq_true_eq] at hend
  refine ⟨s, hs, hend.1.1, hend.1.2, hend.2, scanning_ports_apart ?_ hs⟩
  refine hover.imp_of_invariant (I := fun _ => True) (fun s a _ hC b hb => ?_)
    (fun _ _ _ _ _ _ => trivial) trivial
  rw [Option.mem_def.mp hb] at hC
  exact notCrossed_overAgent hC

end Scanning

end RigControl.Gtk
