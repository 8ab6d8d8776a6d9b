import RigControl.Gtk.Session

/-!
# The ports sessions get

`alloc_lan_port` and `alloc_stream_k` of `session.c` over any list of sessions, dead
ones and repeated ports among them. The outer loop of `alloc_lan_port` has no bound; it
ends because the ports it passes over are all different and each is the port of a live
session. So it also passes over no more ports than there are live sessions, and `int`
holds them all unless there are about as many live sessions as `int` has values.
-/

namespace RigControl.Gtk

open RigControl.Lib

/-- The loop of `alloc_lan_port` from `port` on, for so many turns. -/
def allocLanPortLoop (sessions : List PortSession) : Nat → Int → Option Int :=
  firstFree (lanPortUsed sessions)

/-- What `alloc_stream_k` returns, `-1` for no port. -/
def allocStreamKInt (sessions : List StreamUse) (serial : Option CString) : Int :=
  (allocStreamK sessions serial).elim (-1) fun k => k

/-- The sessions that count: those not torn down. -/
def liveSessions (sessions : List PortSession) : List PortSession :=
  sessions.filter fun s => !s.torn

/-- A live session has the port. -/
def HoldsLan (sessions : List PortSession) (port : Int) : Prop :=
  ∃ s ∈ liveSessions sessions, s.lanPort = port

/-- A live session of the serial has the stream port; no session is of the serial
`NULL`. -/
def HoldsStream (sessions : List PortSession) (serial : Option CString) (k : Nat) : Prop :=
  ∃ s ∈ liveSessions sessions,
    (∃ text, serial = some text ∧ s.serialOwned = some text) ∧ s.streamK = k

variable {sessions : List PortSession} {serial : Option CString} {port : Int} {k : Nat}

theorem mem_liveSessions {s : PortSession} :
    s ∈ liveSessions sessions ↔ s ∈ sessions ∧ s.torn = false := by
  simp [liveSessions]

theorem holdsLan_iff : HoldsLan sessions port ↔ lanPortUsed sessions port = true := by
  rw [lanPortUsed_iff]
  simp only [HoldsLan, mem_liveSessions, and_assoc]

theorem use_uses {s : PortSession} : s.use.uses serial k = true ↔
    s.torn = false ∧ s.streamK = k ∧ ∃ text, serial = some text ∧ s.serialOwned = some text := by
  cases hs : s.serialOwned with
  | none => simp [PortSession.use, StreamUse.uses, hs]
  | some text =>
    have hof : some text = serial ↔ ∃ t, serial = some t ∧ some text = some t :=
      ⟨fun h => ⟨text, h.symm, rfl⟩, fun h => h.elim fun t ht => ht.2.trans ht.1.symm⟩
    rw [← hof]
    simp [PortSession.use, StreamUse.uses, hs, and_assoc]

theorem holdsStream_iff : HoldsStream sessions serial k ↔
    ((sessions.map PortSession.use).any fun s => s.uses serial k) = true := by
  simp only [HoldsStream, mem_liveSessions, List.any_map, List.any_eq_true, Function.comp_apply,
    use_uses]
  constructor
  · rintro ⟨s, ⟨hs, htorn⟩, hof, hk⟩
    exact ⟨s, hs, htorn, hk, hof⟩
  · rintro ⟨s, hs, htorn, hk, hof⟩
    exact ⟨s, ⟨hs, htorn⟩, hof, hk⟩

theorem isFirstFree_iff : IsFirstFree (lanPortUsed sessions) rcLanBasePort port ↔
    rcLanBasePort ≤ port ∧ ¬HoldsLan sessions port ∧
      ∀ q, rcLanBasePort ≤ q → q < port → HoldsLan sessions q := by
  simp only [holdsLan_iff, Bool.not_eq_true]
  exact ⟨fun h => ⟨h.le, h.free, h.before⟩, fun h => ⟨h.1, h.2.1, h.2.2⟩⟩

/-- One turn more than there are live sessions is enough for the loop. -/
theorem allocLanPortLoop_ends (sessions : List PortSession) :
    ∃ port, IsFirstFree (lanPortUsed sessions) rcLanBasePort port ∧
      ∀ n, (liveSessions sessions).length < n →
        allocLanPortLoop sessions n rcLanBasePort = some port := by
  obtain ⟨port, hport, hloop⟩ := @firstFree_of_cover (lanPortUsed sessions) rcLanBasePort
    ((liveSessions sessions).map PortSession.lanPort) fun y _ => lanPort_mem
  exact ⟨port, hport, fun n hn => hloop n (by simpa using hn)⟩

/-- The bounded search that the rest of the model uses finds the port of the loop. -/
theorem allocLanPort_isFirstFree (sessions : List PortSession) :
    IsFirstFree (lanPortUsed sessions) rcLanBasePort (allocLanPort sessions) := by
  obtain ⟨i, heq, hfree, hused⟩ := allocLanPort_eq sessions
  refine heq ▸ ⟨by omega, hfree, fun y hle hlt => ?_⟩
  have hy : y = rcLanBasePort + ((y - rcLanBasePort).toNat : Int) := by omega
  exact hy ▸ hused (y - rcLanBasePort).toNat (by omega)

theorem allocStreamKInt_eq {r : Int} :
    allocStreamKInt (sessions.map PortSession.use) serial = r →
      (∃ k : Nat, r = k ∧ k < streamCount ∧ ¬HoldsStream sessions serial k ∧
          ∀ j < k, HoldsStream sessions serial j) ∨
        r = -1 ∧ ∀ k < streamCount, HoldsStream sessions serial k := by
  rintro rfl
  unfold allocStreamKInt
  cases h : allocStreamK (sessions.map PortSession.use) serial with
  | some k =>
    obtain ⟨hk, hfree, hused⟩ := allocStreamK_eq_some.mp h
    refine .inl ⟨k, rfl, hk, ?_, fun j hj => holdsStream_iff.mpr (hused j hj)⟩
    rw [holdsStream_iff, hfree]
    exact Bool.false_ne_true
  | none =>
    refine .inr ⟨rfl, fun k hk => holdsStream_iff.mpr ?_⟩
    have hnone := List.find?_eq_none.mp h k (List.mem_range.mpr hk)
    simpa using hnone

/-- **The ports are the least that are free.** The loop of `alloc_lan_port` returns the
least port from `RC_LAN_BASE_PORT` on that no live session has, and no more ports are
taken before it than there are live sessions. `alloc_stream_k` returns the least stream
port that no live session of the serial has, and `-1` only if live sessions of the
serial have all four. -/
theorem ports_least_free (sessions : List PortSession) :
    (∃ port, (∀ n, (liveSessions sessions).length < n →
          allocLanPortLoop sessions n rcLanBasePort = some port) ∧
        allocLanPort sessions = port ∧ rcLanBasePort ≤ port ∧ ¬HoldsLan sessions port ∧
        (∀ q, rcLanBasePort ≤ q → q < port → HoldsLan sessions q) ∧
        port ≤ rcLanBasePort + (liveSessions sessions).length) ∧
    ∀ serial, (∃ k : Nat, allocStreamKInt (sessions.map PortSession.use) serial = k ∧
          k < streamCount ∧ ¬HoldsStream sessions serial k ∧
          ∀ j < k, HoldsStream sessions serial j) ∨
      allocStreamKInt (sessions.map PortSession.use) serial = -1 ∧
        ∀ k < streamCount, HoldsStream sessions serial k := by
  refine ⟨?_, fun serial => allocStreamKInt_eq rfl⟩
  obtain ⟨port, hport, hloop⟩ := allocLanPortLoop_ends sessions
  obtain ⟨hle, hfree, hused⟩ := isFirstFree_iff.mp hport
  have hbound := @IsFirstFree.le_add_length _ _ _
    ((liveSessions sessions).map PortSession.lanPort) hport fun y _ => lanPort_mem
  exact ⟨port, hloop, (allocLanPort_isFirstFree sessions).unique hport, hle, hfree, hused,
    by simpa using hbound⟩

end RigControl.Gtk
