import RigControl.Agent.Upstream

/-!
# Another attempt

The guest may not listen yet, so an upstream that fails before the deadline is no reason
to give the client up: `stream_open_upstream` has the verdict -1 for it, and tries again.
Of the four ways to fail one gets the verdict -2, which is meant for the client: the
upstream is gone when bytes that the client has just sent are written to it. In every
run in which the client stays, each failure is followed by another attempt exactly where
no such write fails (`retries_iff`).
-/

namespace RigControl.Agent

open RigControl.Lib
open RigControl.Core (Errno)

namespace Relay

/-- Another attempt comes next, and it replays all that the client has sent. -/
structure Retries (s : Relay) : Prop where
  phase : s.phase = .connecting
  replay : s.pre.bytes = s.fromClient

/-- The upstream is not confirmed yet, and the iteration that begins at `now` polls. -/
def polls (s : Relay) (now : Int) : Bool :=
  match s.phase with
  | .confirming _ t0 => now < t0 + quietMs
  | _ => false

def beforeDeadline (s : Relay) (now : Int) : Prop := now < s.tStart + deadlineMs

instance (s : Relay) (now : Int) : Decidable (s.beforeDeadline now) :=
  inferInstanceAs (Decidable (now < _))

/-- The client is there and its socket without an error, `poll` does not fail, and what
the client sends fits in `pre`. -/
def ClientStays (s : Relay) (writes : List (WriteRet Errno)) : PollRet → ReadRet → Prop
  | .failed e, _ => e = .eintr
  | .ready _ true, .data bs => (writeFull bs writes).2 ≠ .failed
  | .ready true false, .data bs => (s.fromClient ++ bs).length ≤ preCap
  | .ready true false, _ => False
  | _, _ => True

instance (s : Relay) (writes : List (WriteRet Errno)) :
    ∀ poll read, Decidable (s.ClientStays writes poll read)
  | .failed e, _ => inferInstanceAs (Decidable (e = .eintr))
  | .timeout, _ => instDecidableTrue
  | .ready _ true, .data bs => inferInstanceAs (Decidable ((writeFull bs writes).2 ≠ .failed))
  | .ready true false, .data bs => inferInstanceAs (Decidable ((s.fromClient ++ bs).length ≤ preCap))
  | .ready true false, .eof | .ready true false, .error => instDecidableFalse
  | .ready _ true, .eof | .ready _ true, .error => instDecidableTrue
  | .ready false false, _ => instDecidableTrue

end Relay

namespace RelayAct

/-- The client stays, and `g_stop` is not set. -/
def Quiet (s : Relay) : RelayAct → Prop
  | .connect _ stop _ _ => stop = false
  | .confirm now poll read writes stop _ =>
    stop = false ∧ (s.polls now = true → s.ClientStays writes poll read)
  | _ => True

instance (s : Relay) : ∀ a, Decidable (Quiet s a)
  | .connect _ stop _ _ => inferInstanceAs (Decidable (stop = false))
  | .confirm .. => inferInstanceAs (Decidable (_ ∧ (_ → _)))
  | .dial _ => instDecidableTrue
  | .pump .. => instDecidableTrue

/-- The upstream cannot be connected to. -/
def Refused (s : Relay) : RelayAct → Prop
  | .connect ok _ now _ => s.phase = .connecting ∧ s.beforeDeadline now ∧ ok = false
  | _ => False

/-- A write of the replay fails. -/
def ReplayFails (s : Relay) : RelayAct → Prop
  | .connect ok _ now replay => s.phase = .connecting ∧ s.beforeDeadline now ∧ ok = true ∧
      (writeFull s.pre.bytes replay).2 = .failed
  | _ => False

/-- The upstream closes, or a read from it fails. -/
def Drops (s : Relay) (a : RelayAct) : Prop :=
  ∃ now client read writes stop after, a = .confirm now (.ready client true) read writes stop after ∧
    s.polls now = true ∧ s.beforeDeadline after ∧ (read = .eof ∨ read = .error)

/-- Bytes of the client that are written to the upstream at hand: when, what the writes
return, and the clock after it. -/
def newData : RelayAct → Option (Int × List UInt8 × List (WriteRet Errno) × Int)
  | .confirm now (.ready true false) (.data bs) writes _ after => some (now, bs, writes, after)
  | _ => none

/-- A write of bytes that the client has just sent fails. -/
def NewDataFails (s : Relay) (a : RelayAct) : Prop :=
  ∃ d ∈ a.newData, s.polls d.1 = true ∧ s.beforeDeadline d.2.2.2 ∧
    (writeFull d.2.1 d.2.2.1).2 = .failed

instance (s : Relay) (a : RelayAct) : Decidable (NewDataFails s a) :=
  inferInstanceAs (Decidable (∃ d ∈ a.newData, _ ∧ _ ∧ _))

theorem newData_eq_some {a : RelayAct} {now after : Int} {bs : List UInt8}
    {writes : List (WriteRet Errno)} (h : a.newData = some (now, bs, writes, after)) :
    ∃ stop, a = .confirm now (.ready true false) (.data bs) writes stop after := by
  unfold newData at h
  split at h
  · cases h
    exact ⟨_, rfl⟩
  · cases h

/-- The upstream fails before the deadline. -/
def UpFails (s : Relay) (a : RelayAct) : Prop :=
  Refused s a ∨ ReplayFails s a ∨ Drops s a ∨ NewDataFails s a

end RelayAct

namespace Relay

open RelayAct

variable {s s' : Relay} {a : RelayAct}

theorem polls_eq_true {now : Int} (h : s.polls now = true) :
    ∃ up t0, s.phase = .confirming up t0 ∧ ¬ quietMs - (now - t0) ≤ 0 := by
  unfold polls at h
  split at h
  · rename_i up t0 hphase
    have hlt := of_decide_eq_true h
    exact ⟨up, t0, hphase, by omega⟩
  · cases h

theorem expired_of_before {now : Int} (h : s.beforeDeadline now) : s.expired now = false :=
  decide_eq_false (Int.not_le.mpr h)

theorem connecting_of_refused (hquiet : Quiet s a) (hfail : Refused s a)
    (h : relayStep s a = some s') : s'.phase = .connecting := by
  cases a with
  | connect ok stop now replay =>
    obtain ⟨hphase, hbefore, rfl⟩ := hfail
    obtain rfl : stop = false := hquiet
    simp only [relayStep, hphase, connect, expired_of_before hbefore] at h
    cases h
    exact hphase
  | dial | confirm | pump => cases hfail

theorem connecting_of_replayFails (hfail : ReplayFails s a) (h : relayStep s a = some s') :
    s'.phase = .connecting := by
  cases a with
  | connect ok stop now replay =>
    obtain ⟨hphase, -, rfl, hfailed⟩ := hfail
    simp only [relayStep, hphase, connect, toUpFull, hfailed] at h
    cases h
    exact hphase
  | dial | confirm | pump => cases hfail

/-- The verdict -1. -/
theorem settle_dropped {up : Attempt} {t0 after : Int} (h : s.beforeDeadline after) :
    (s.settle up t0 false after .dropped).phase = .connecting := by
  simp [settle, expired_of_before h]

theorem connecting_of_drops (hquiet : Quiet s a) (hfail : Drops s a)
    (h : relayStep s a = some s') : s'.phase = .connecting := by
  obtain ⟨now, client, read, writes, stop, after, rfl, hpolls, hbefore, hread⟩ := hfail
  obtain ⟨rfl, -⟩ := hquiet
  obtain ⟨up, t0, hphase, hwindow⟩ := polls_eq_true hpolls
  have hverdict : s.confirmOnce up t0 now (.ready client true) read writes =
      some (s, up, .dropped) := by
    rcases hread with rfl | rfl <;> simp [confirmOnce, hwindow, ReadRet.Into]
  simp only [relayStep, hphase, hverdict] at h
  cases h
  exact settle_dropped hbefore

/-- What comes of a write of new bytes that fails: the verdict -2. -/
theorem ended_of_newDataFails (hfail : NewDataFails s a) (h : relayStep s a = some s') :
    s'.phase = .ended none := by
  obtain ⟨⟨now, bs, writes, after⟩, hdata, hpolls, -, hfailed⟩ := hfail
  obtain ⟨stop, rfl⟩ := newData_eq_some hdata
  obtain ⟨up, t0, hphase, hwindow⟩ := polls_eq_true hpolls
  simp only [relayStep, hphase, confirmOnce, if_neg hwindow] at h
  split at h
  · split at h
    · cases h
      rfl
    · simp only [toUpFull, hfailed] at h
      cases h
      rfl
  · cases h

theorem InOrder.retries (h : s.InOrder) (hphase : s.phase = .connecting) : s.Retries := by
  simp only [InOrder, hphase] at h
  exact ⟨hphase, h.2.2⟩

theorem retries_step_iff (hs : s.InOrder) (hquiet : Quiet s a) (h : relayStep s a = some s') :
    (UpFails s a → s'.Retries) ↔ ¬NewDataFails s a := by
  constructor
  · intro hall hfail
    have hconnecting := (hall (.inr (.inr (.inr hfail)))).phase
    rw [ended_of_newDataFails hfail h] at hconnecting
    cases hconnecting
  · intro hnot hfail
    refine (inOrder_step hs h).retries ?_
    rcases hfail with hfail | hfail | hfail | hfail
    · exact connecting_of_refused hquiet hfail h
    · exact connecting_of_replayFails hfail h
    · exact connecting_of_drops hquiet hfail h
    · exact absurd hfail hnot

end Relay

open RelayAct

/-- From any state in order. -/
theorem retries_run_iff {tStart : Int} {as : List RelayAct} {s s' : Relay} (hs : s.InOrder)
    (hquiet : (relayLts true tStart).Meets Quiet s as)
    (h : (relayLts true tStart).run s as = some s') :
    (relayLts true tStart).Meets (fun s a => UpFails s a → ∀ s' ∈ relayStep s a, s'.Retries) s as ↔
      (relayLts true tStart).Meets (fun s a => ¬NewDataFails s a) s as := by
  induction as generalizing s with
  | nil => exact Iff.rfl
  | cons a as ih =>
    obtain ⟨t, ht, h⟩ := Lts.run_cons.mp h
    have hiff := Relay.retries_step_iff hs hquiet.1 ht
    have hrest := ih (Relay.inOrder_step hs ht) (hquiet.2 t ht) h
    have honly : ∀ t', relayStep s a = some t' → t' = t := fun t' ht' =>
      Option.some.inj (ht'.symm.trans ht)
    constructor
    · rintro ⟨hnow, hlater⟩
      refine ⟨hiff.mp fun hfail => hnow hfail t ht, fun t' ht' => ?_⟩
      obtain rfl := honly t' ht'
      exact hrest.mp (hlater t' ht')
    · rintro ⟨hnow, hlater⟩
      refine ⟨fun hfail t' ht' => honly t' ht' ▸ hiff.mpr hnow hfail, fun t' ht' => ?_⟩
      obtain rfl := honly t' ht'
      exact hrest.mpr (hlater t' ht')

/-- **Each failure of an upstream is followed by another attempt with a replay**, in the
runs in which the client stays and `g_stop` is not set, exactly where no write of bytes
that the client has just sent fails before the deadline. -/
theorem retries_iff (tStart : Int) (as : List RelayAct) {s : Relay}
    (hrun : (relayLts true tStart).run (relayLts true tStart).init as = some s)
    (hquiet : (relayLts true tStart).Meets Quiet (relayLts true tStart).init as) :
    (relayLts true tStart).Meets (fun s a => UpFails s a → ∀ s' ∈ relayStep s a, s'.Retries)
        (relayLts true tStart).init as ↔
      (relayLts true tStart).Meets (fun s a => ¬NewDataFails s a) (relayLts true tStart).init as :=
  retries_run_iff (Relay.inOrder_start true tStart) hquiet hrun

/-- Each way to fail but one: the upstream refuses; a byte comes and adb closes; the
replay fails; and at last the upstream answers. -/
def failingRun : List RelayAct :=
  [.connect false false 5 [], .connect true false 210 [],
    .confirm 220 (.ready true false) (.data [7]) [.wrote 1] false 220,
    .confirm 230 (.ready true true) .eof [] false 230, .connect true false 390 [.fault .other],
    .connect true false 400 [.wrote 1],
    .confirm 410 (.ready false true) (.data [8]) [.wrote 1] false 410]

theorem retries_failing :
    (relayLts true 0).Meets (fun s a => UpFails s a → ∀ s' ∈ relayStep s a, s'.Retries)
      (relayLts true 0).init failingRun :=
  (retries_iff 0 failingRun rfl (by decide)).mpr (by decide)

/-- A second byte comes just when adb has closed the upstream, and the client is given
up, 20 ms after it has come. -/
def resetRun : List RelayAct :=
  [.connect true false 0 [], .confirm 10 (.ready true false) (.data [7]) [.wrote 1] false 10,
    .confirm 20 (.ready true false) (.data [8]) [.fault .other] false 20]

theorem client_given_up :
    ¬∀ (tStart : Int) (as : List RelayAct) (s : Relay),
      (relayLts true tStart).run (relayLts true tStart).init as = some s →
      (relayLts true tStart).Meets Quiet (relayLts true tStart).init as →
      (relayLts true tStart).Meets (fun s a => UpFails s a → ∀ s' ∈ relayStep s a, s'.Retries)
        (relayLts true tStart).init as := by
  intro hall
  have hmeets := hall 0 resetRun _ rfl (by decide)
  -- the last step
  have hlast := (hmeets.2 _ rfl).2 _ rfl
  have hretries := hlast.1 (.inr (.inr (.inr (by decide)))) _ rfl
  exact absurd hretries.phase (by decide)

end RigControl.Agent
