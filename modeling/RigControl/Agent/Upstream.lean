import RigControl.Agent.Group
import RigControl.Agent.Relay
import RigControl.Lib.Path

/-!
# Giving up in time

The group section of `conn_thread`: the thread of the connection `i` has the `Group`,
runs `stream_open_upstream` and gives the `Group` back. Here the relay goes by a clock,
and `g_stop` may be set at any time; the other threads of the port go on in between. An
attempt to get an upstream begins with a `connect`; a pause is what passes before it,
the sleep after an attempt that failed among it.
-/

namespace RigControl.Agent

open RigControl.Lib
open RigControl.Core (Errno)

structure Section where
  group : GroupState
  relay : Relay
  /-- The clock and `g_stop`, at the end of the last iteration. -/
  clock : Int
  stop : Bool
  /-- Each attempt, by the clock and `g_stop` at its beginning. -/
  begun : List (Int × Bool)
  deriving DecidableEq

inductive SectionAct where
  /-- Another thread of the port. -/
  | others (a : GroupAct)
  /-- An iteration of a loop of `stream_open_upstream`; in the pause before it `g_stop`
  may have been set. -/
  | iterate (pause : Nat) (raised : Bool) (a : RelayAct)
  /-- `stream_open_upstream` returns. -/
  | returns
  | release
  deriving DecidableEq

/-- The clock and `g_stop` at the end of an iteration that begins at `clock`: what it
reads of them is not older, and `g_stop` stays set. -/
def RelayAct.timed (clock : Int) (stop : Bool) : RelayAct → Option (Int × Bool)
  | .connect _ stop' now _ => if clock ≤ now ∧ (stop → stop') then some (now, stop') else none
  | .confirm now _ _ _ stop' after =>
    if clock ≤ now ∧ now ≤ after ∧ (stop → stop') then some (after, stop') else none
  | _ => none

def RelayAct.begins : RelayAct → Bool
  | .connect .. => true
  | _ => false

namespace Section

def deadline (s : Section) : Int := s.relay.tStart + deadlineMs

def iterate (s : Section) (pause : Nat) (raised : Bool) (a : RelayAct) : Option Section :=
  let clock := s.clock + pause
  let stop := s.stop || raised
  (a.timed clock stop).bind fun (clock', stop') =>
    (relayStep s.relay a).map fun relay =>
      { s with
        relay
        clock := clock'
        stop := stop'
        begun := if a.begins then s.begun ++ [(clock, stop)] else s.begun }

end Section

def sectionStep (i : Nat) (s : Section) : SectionAct → Option Section
  | .others a => if a.Of i then none else (groupStep s.group a).map fun group => { s with group }
  | .iterate pause raised a => s.iterate pause raised a
  | .returns =>
    match s.relay.phase with
    | .pumping _ => (groupStep s.group (.openReturns i true)).map fun group => { s with group }
    | .ended none => (groupStep s.group (.openReturns i false)).map fun group => { s with group }
    | _ => none
  | .release => (groupStep s.group (.release i)).map fun group => { s with group }

/-- From where the thread has taken the `Group`. -/
def sectionLts (i : Nat) (group : GroupState) (tStart : Int) (stop : Bool) :
    Lts Section SectionAct :=
  { init := ⟨group, .start true tStart, tStart, stop, []⟩, step := sectionStep i }

/-! ## In time -/

namespace Section

/-- Between two attempts: the first of them failed before the deadline and without
`g_stop`, for else the function would have returned. -/
def Between (s : Section) : Prop :=
  s.relay.phase = .connecting → s.begun = [] ∨ (s.clock < s.deadline ∧ s.stop = false)

/-- No new attempt is begun after the deadline or after `g_stop`. -/
def BegunInTime (s : Section) : Prop := ∀ b ∈ s.begun.tail, b.1 < s.deadline ∧ b.2 = false

structure InTime (s : Section) : Prop where
  between : s.Between
  begun : s.BegunInTime

end Section

namespace SectionAct

/-- No replay fails after the deadline or after `g_stop`. -/
def ReplayInTime (s : Section) : SectionAct → Prop
  | .iterate _ _ (.connect true stop now replay) =>
    s.deadline ≤ now ∨ stop = true → (writeFull s.relay.pre.bytes replay).2 ≠ .failed
  | _ => True

/-- No pause before a new attempt goes over the deadline, or over `g_stop`. -/
def PauseInTime (s : Section) : SectionAct → Prop
  | .iterate pause raised (.connect ..) =>
    s.begun ≠ [] → ¬ (s.clock < s.deadline ∧ s.deadline ≤ s.clock + pause) ∧
      ¬ (s.stop = false ∧ raised = true)
  | _ => True

end SectionAct

/-! ## What an iteration does -/

namespace Relay

variable {s s' : Relay} {a : RelayAct} {up : Attempt} {t0 : Int}

theorem expired_eq_false {now : Int} (h : s.expired now = false) : now < s.tStart + deadlineMs := by
  unfold expired at h
  have := of_decide_eq_false h
  omega

theorem expired_eq_true {now : Int} (h : s.expired now = true) : s.tStart + deadlineMs ≤ now :=
  of_decide_eq_true h

/-- How a write to the upstream ended. -/
theorem toUpFull_wrote {bs : List UInt8} {rs : List (WriteRet Errno)} {up' : Attempt} {ok : Bool}
    (h : s.toUpFull up bs rs = some (s', up', ok)) :
    s' = s ∧ (writeFull bs rs).2 = if ok then .done else .failed := by
  simp only [toUpFull] at h
  cases hw : (writeFull bs rs).2 <;> simp [hw] at h
  · exact ⟨h.1.symm, by simp [h.2.2]⟩
  · exact ⟨h.1.symm, by simp [h.2.2]⟩

/-- An attempt: refused, and then it matters how late it is; or the replay fails, and it
does not; or it waits for a confirmation. -/
theorem step_connecting (hphase : s.phase = .connecting) (h : relayStep s a = some s') :
    ∃ ok stop now replay, a = .connect ok stop now replay ∧ s'.tStart = s.tStart ∧
      ((ok = false ∧ (stop = true ∨ s.tStart + deadlineMs ≤ now) ∧ s'.phase = .ended none) ∨
       (ok = false ∧ stop = false ∧ now < s.tStart + deadlineMs ∧ s'.phase = .connecting) ∨
       (ok = true ∧ (writeFull s.pre.bytes replay).2 = .failed ∧ s'.phase = .connecting) ∨
       (ok = true ∧ (writeFull s.pre.bytes replay).2 = .done ∧
        ∃ up, s'.phase = .confirming up now)) := by
  unfold relayStep at h
  rw [hphase] at h
  cases a with
  | connect ok stop now replay =>
    refine ⟨ok, stop, now, replay, rfl, ?_⟩
    simp only [connect] at h
    cases ok with
    | false =>
      simp only [Bool.not_false, if_true] at h
      cases hlate : (stop || s.expired now) with
      | true =>
        rw [hlate, if_pos rfl] at h
        cases h
        refine ⟨rfl, .inl ⟨rfl, ?_, rfl⟩⟩
        exact (Bool.or_eq_true_iff.mp hlate).imp id expired_eq_true
      | false =>
        rw [hlate, if_neg Bool.false_ne_true] at h
        cases h
        obtain ⟨hstop, hexpired⟩ := Bool.or_eq_false_iff.mp hlate
        exact ⟨rfl, .inr (.inl ⟨rfl, hstop, expired_eq_false hexpired, hphase⟩)⟩
    | true =>
      simp only [Bool.not_true, Bool.false_eq_true, if_false] at h
      split at h
      · cases h
      · rename_i s1 up hw
        obtain ⟨rfl, hwrote⟩ := toUpFull_wrote hw
        cases h
        exact ⟨rfl, .inr (.inr (.inr ⟨rfl, hwrote, up, rfl⟩))⟩
      · rename_i s1 up hw
        obtain ⟨rfl, hwrote⟩ := toUpFull_wrote hw
        cases h
        exact ⟨rfl, .inr (.inr (.inl ⟨rfl, hwrote, hphase⟩))⟩
  | dial ok => cases h
  | confirm now poll read writes stop after => cases h
  | pump poll stop client upWrites up clientWrites => cases h

theorem confirmOnce_spec {s1 : Relay} {up1 : Attempt} {v : Verdict} {now : Int} {poll : PollRet}
    {read : ReadRet} {writes : List (WriteRet Errno)}
    (h : s.confirmOnce up t0 now poll read writes = some (s1, up1, v)) :
    s1.tStart = s.tStart ∧ (v = .waiting → now < t0 + quietMs) := by
  unfold confirmOnce at h
  by_cases hquiet : quietMs - (now - t0) ≤ 0
  · rw [if_pos hquiet] at h
    cases h
    exact ⟨rfl, fun hv => by cases hv⟩
  · rw [if_neg hquiet] at h
    refine ⟨?_, fun _ => by omega⟩
    split at h
    · cases h
      rfl
    · cases h
      rfl
    · cases h
      rfl
    · split at h
      · split at h
        · obtain ⟨⟨s2, up2, ok⟩, hw, heq⟩ := Option.map_eq_some_iff.mp h
          cases heq
          obtain ⟨sent, failed, rfl, -⟩ := toClientFull_eq_some hw
          rfl
        · cases h
          rfl
      · cases h
    · split at h
      · split at h
        · dsimp only at h
          split at h
          · cases h
            rfl
          · obtain ⟨⟨s2, up2, ok⟩, hw, heq⟩ := Option.map_eq_some_iff.mp h
            obtain ⟨rfl, -⟩ := toUpFull_wrote hw
            cases ok <;>
            · cases heq
              rfl
        · cases h
          rfl
      · cases h
    · cases h
      rfl

/-- An iteration that waits for a confirmation. -/
theorem step_confirming (hphase : s.phase = .confirming up t0) (h : relayStep s a = some s') :
    ∃ now poll read writes stop after, a = .confirm now poll read writes stop after ∧
      s'.tStart = s.tStart ∧
      ((now < t0 + quietMs ∧ ∃ up', s'.phase = .confirming up' t0) ∨
       (∃ up', s'.phase = .pumping up') ∨ s'.phase = .ended none ∨
       (stop = false ∧ after < s.tStart + deadlineMs ∧ s'.phase = .connecting)) := by
  unfold relayStep at h
  rw [hphase] at h
  cases a with
  | confirm now poll read writes stop after =>
    refine ⟨now, poll, read, writes, stop, after, rfl, ?_⟩
    obtain ⟨⟨s1, up1, v⟩, hc, heq⟩ := Option.map_eq_some_iff.mp h
    obtain ⟨hstart, hquiet⟩ := confirmOnce_spec hc
    cases heq
    cases v with
    | waiting => exact ⟨hstart, .inl ⟨hquiet rfl, up1, rfl⟩⟩
    | confirmed => exact ⟨hstart, .inr (.inl ⟨up1, rfl⟩)⟩
    | gaveUp => exact ⟨hstart, .inr (.inr (.inl rfl))⟩
    | dropped =>
      refine ⟨hstart, .inr (.inr ?_)⟩
      cases hlate : (stop || s1.expired after) with
      | true => exact .inl (by simp [settle, hlate])
      | false =>
        obtain ⟨hstop, hexpired⟩ := Bool.or_eq_false_iff.mp hlate
        refine .inr ⟨hstop, ?_, by simp [settle, hlate]⟩
        rw [← hstart]
        exact expired_eq_false hexpired
  | dial ok => cases h
  | connect ok stop now replay => cases h
  | pump poll stop client upWrites up clientWrites => cases h

end Relay

/-! ## What a step does -/

/-- In `stream_open_upstream`, and behind it. -/
def Section.Inside (s : Section) : Prop :=
  s.relay.phase = .connecting ∨ ∃ up t0, s.relay.phase = .confirming up t0

def Section.Returned (s : Section) : Prop :=
  (∃ up, s.relay.phase = .pumping up) ∨ s.relay.phase = .ended none

/-- The ways a step can go. -/
inductive SectionMove (i : Nat) (s : Section) : SectionAct → Section → Prop where
  | others {a : GroupAct} {group : GroupState} (hothers : ¬ a.Of i)
      (hgroup : groupStep s.group a = some group) : SectionMove i s (.others a) { s with group }
  | connect {pause : Nat} {raised ok stop : Bool} {now : Int} {replay : List (WriteRet Errno)}
      {relay : Relay} (hphase : s.relay.phase = .connecting) (hnow : s.clock + pause ≤ now)
      (hstop : (s.stop || raised) = true → stop = true) (hstart : relay.tStart = s.relay.tStart)
      (hcase : (ok = false ∧ (stop = true ∨ s.deadline ≤ now) ∧ relay.phase = .ended none) ∨
        (ok = false ∧ stop = false ∧ now < s.deadline ∧ relay.phase = .connecting) ∨
        (ok = true ∧ (writeFull s.relay.pre.bytes replay).2 = .failed ∧
          relay.phase = .connecting) ∨
        (ok = true ∧ (writeFull s.relay.pre.bytes replay).2 = .done ∧
          ∃ up, relay.phase = .confirming up now)) :
      SectionMove i s (.iterate pause raised (.connect ok stop now replay))
        { s with relay, clock := now, stop, begun := s.begun ++ [(s.clock + pause, s.stop || raised)] }
  | confirm {pause : Nat} {raised stop : Bool} {now after : Int} {poll : PollRet} {read : ReadRet}
      {writes : List (WriteRet Errno)} {relay : Relay} {up : Attempt} {t0 : Int}
      (hphase : s.relay.phase = .confirming up t0) (hnow : s.clock + pause ≤ now)
      (hafter : now ≤ after) (hstart : relay.tStart = s.relay.tStart)
      (hcase : (now < t0 + quietMs ∧ ∃ up', relay.phase = .confirming up' t0) ∨
        (∃ up', relay.phase = .pumping up') ∨ relay.phase = .ended none ∨
        (stop = false ∧ after < s.deadline ∧ relay.phase = .connecting)) :
      SectionMove i s (.iterate pause raised (.confirm now poll read writes stop after))
        { s with relay, clock := after, stop }
  | returns {ok : Bool} {group : GroupState} (hret : s.Returned)
      (hgroup : groupStep s.group (.openReturns i ok) = some group) :
      SectionMove i s .returns { s with group }
  | release {group : GroupState} (hgroup : groupStep s.group (.release i) = some group) :
      SectionMove i s .release { s with group }

variable {i : Nat} {s s' : Section} {a : SectionAct}

theorem iterate_move {pause : Nat} {raised : Bool} {a : RelayAct}
    (h : s.iterate pause raised a = some s') : SectionMove i s (.iterate pause raised a) s' := by
  obtain ⟨⟨clock, stop⟩, htimed, h⟩ := Option.bind_eq_some_iff.mp h
  obtain ⟨relay, hrelay, h⟩ := Option.map_eq_some_iff.mp h
  cases h
  cases a with
  | dial ok => cases htimed
  | pump poll stop client upWrites up clientWrites => cases htimed
  | connect ok stop' now replay =>
    obtain ⟨⟨hnow, hstop⟩, htimed⟩ := Option.ite_none_right_eq_some.mp htimed
    cases htimed
    have hphase : s.relay.phase = .connecting := by
      unfold relayStep at hrelay
      split at hrelay <;> simp_all
    obtain ⟨_, _, _, _, heq, hstart, hcase⟩ := Relay.step_connecting hphase hrelay
    cases heq
    exact .connect hphase hnow hstop hstart hcase
  | confirm now poll read writes stop' after =>
    obtain ⟨⟨hnow, hafter, -⟩, htimed⟩ := Option.ite_none_right_eq_some.mp htimed
    cases htimed
    have hphase : ∃ up t0, s.relay.phase = .confirming up t0 := by
      unfold relayStep at hrelay
      split at hrelay <;> simp_all
    obtain ⟨up, t0, hphase⟩ := hphase
    obtain ⟨_, _, _, _, _, _, heq, hstart, hcase⟩ := Relay.step_confirming hphase hrelay
    cases heq
    exact .confirm hphase hnow hafter hstart hcase

theorem sectionStep_move (h : sectionStep i s a = some s') : SectionMove i s a s' := by
  cases a with
  | others a =>
    simp only [sectionStep] at h
    split at h
    · cases h
    · rename_i hothers
      obtain ⟨group, hgroup, h⟩ := Option.map_eq_some_iff.mp h
      cases h
      exact .others hothers hgroup
  | iterate pause raised a => exact iterate_move h
  | returns =>
    simp only [sectionStep] at h
    split at h
    · rename_i up hphase
      obtain ⟨group, hgroup, h⟩ := Option.map_eq_some_iff.mp h
      cases h
      exact .returns (.inl ⟨up, hphase⟩) hgroup
    · rename_i hphase
      obtain ⟨group, hgroup, h⟩ := Option.map_eq_some_iff.mp h
      cases h
      exact .returns (.inr hphase) hgroup
    · cases h
  | release =>
    obtain ⟨group, hgroup, h⟩ := Option.map_eq_some_iff.mp h
    cases h
    exact .release hgroup

/-! ## Invariants -/

/-- Where the thread is, in the `Group` and in the function. -/
structure Section.Placed (i : Nat) (s : Section) : Prop where
  group : s.group.phase i = some .opening ∨
    ∃ ok, s.group.phase i = some (.opened ok) ∨ s.group.phase i = some (.released ok)
  inside : s.Inside → s.group.phase i = some .opening
  relay : s.Inside ∨ s.Returned
  fresh : s.begun = [] → s.clock = s.relay.tStart ∧ s.relay.phase = .connecting

theorem not_inside (h : s.Returned) : ¬ s.Inside := by
  rintro (hin | ⟨up', t0, hin⟩) <;>
  · rcases h with ⟨up, h⟩ | h <;>
    · rw [h] at hin
      cases hin

theorem placed_step (hs : s.Placed i) (h : SectionMove i s a s') : s'.Placed i := by
  cases h with
  | others hothers hgroup =>
    have hkeep : ∀ p, s.group.phase i = some p → p ≠ .waiting → _ := fun p hp hne =>
      GroupState.phase_others hgroup hothers hp hne
    refine ⟨?_, fun hin => hkeep _ (hs.inside hin) (by simp), hs.relay, hs.fresh⟩
    rcases hs.group with hp | ⟨ok, hp | hp⟩
    · exact .inl (hkeep _ hp (by simp))
    · exact .inr ⟨ok, .inl (hkeep _ hp (by simp))⟩
    · exact .inr ⟨ok, .inr (hkeep _ hp (by simp))⟩
  | connect hphase hnow hstop hstart hcase =>
    have hopening := hs.inside (.inl hphase)
    refine ⟨.inl hopening, fun _ => hopening, ?_, fun hnil => by simp at hnil⟩
    rcases hcase with ⟨-, -, h⟩ | ⟨-, -, -, h⟩ | ⟨-, -, h⟩ | ⟨-, -, up, h⟩
    · exact .inr (.inr h)
    · exact .inl (.inl h)
    · exact .inl (.inl h)
    · exact .inl (.inr ⟨up, _, h⟩)
  | confirm hphase hnow hafter hstart hcase =>
    have hopening := hs.inside (.inr ⟨_, _, hphase⟩)
    refine ⟨.inl hopening, fun _ => hopening, ?_, fun hnil => ?_⟩
    · rcases hcase with ⟨-, up, h⟩ | ⟨up, h⟩ | h | ⟨-, -, h⟩
      · exact .inl (.inr ⟨up, _, h⟩)
      · exact .inr (.inl ⟨up, h⟩)
      · exact .inr (.inr h)
      · exact .inl (.inl h)
    · -- the attempt that is waited for has begun
      have hfresh := (hs.fresh hnil).2
      rw [hphase] at hfresh
      cases hfresh
  | returns hret hgroup =>
    obtain ⟨-, hopened⟩ := GroupState.openReturns_phase hgroup
    exact ⟨.inr ⟨_, .inl hopened⟩, fun hin => absurd hin (not_inside hret), .inr hret, hs.fresh⟩
  | release hgroup =>
    obtain ⟨⟨ok, hopened, hreleased⟩, -⟩ := GroupState.release_phase hgroup
    refine ⟨.inr ⟨ok, .inr hreleased⟩, fun hin => ?_, hs.relay, hs.fresh⟩
    have hopening := hs.inside hin
    rw [hopened] at hopening
    cases hopening

theorem tStart_step (h : SectionMove i s a s') : s'.relay.tStart = s.relay.tStart := by
  cases h with
  | others | returns | release => rfl
  | connect _ _ _ hstart _ => exact hstart
  | confirm _ _ _ hstart _ => exact hstart

theorem deadline_step (h : SectionMove i s a s') : s'.deadline = s.deadline := by
  unfold Section.deadline
  rw [tStart_step h]

theorem clock_step (h : SectionMove i s a s') : s.clock ≤ s'.clock := by
  cases h with
  | others | returns | release => exact Int.le_refl _
  | connect _ hnow _ _ _ =>
    dsimp only
    omega
  | confirm _ hnow hafter _ _ =>
    dsimp only
    omega

/-- What is between two attempts stays in time, if the replay is. -/
theorem between_step (hs : s.Between) (h : SectionMove i s a s') (ha : a.ReplayInTime s) :
    s'.Between := by
  have hdeadline := deadline_step h
  unfold Section.Between
  rw [hdeadline]
  cases h with
  | others | returns | release => exact hs
  | @connect _ _ _ stop now _ _ hphase hnow hstop hstart hcase =>
    intro hconnecting
    rcases hcase with ⟨-, -, h⟩ | ⟨-, hstop, hlt, -⟩ | ⟨rfl, hfailed, -⟩ | ⟨-, -, up, h⟩
    · rw [h] at hconnecting
      cases hconnecting
    · exact .inr ⟨hlt, hstop⟩
    · right
      by_contra hlate
      refine ha ?_ hfailed
      by_cases hlt : now < s.deadline
      · exact .inr (by simpa [hlt] using hlate)
      · exact .inl (Int.not_lt.mp hlt)
    · rw [h] at hconnecting
      cases hconnecting
  | confirm hphase hnow hafter hstart hcase =>
    intro hconnecting
    rcases hcase with ⟨-, up, h⟩ | ⟨up, h⟩ | h | ⟨hstop, hlt, -⟩
    · rw [h] at hconnecting
      cases hconnecting
    · rw [h] at hconnecting
      cases hconnecting
    · rw [h] at hconnecting
      cases hconnecting
    · exact .inr ⟨hlt, hstop⟩

/-- A step keeps all in time exactly when it meets the conditions. -/
theorem inTime_step_iff (hs : s.InTime) (h : SectionMove i s a s') :
    s'.InTime ↔ a.ReplayInTime s ∧ a.PauseInTime s := by
  have hdeadline := deadline_step h
  constructor
  · rintro ⟨hbetween, hbegun⟩
    unfold Section.Between at hbetween
    unfold Section.BegunInTime at hbegun
    rw [hdeadline] at hbetween hbegun
    cases h with
    | others | returns | release => exact ⟨trivial, trivial⟩
    | confirm => exact ⟨trivial, trivial⟩
    | @connect pause raised ok stop now replay relay hphase hnow hstop hstart hcase =>
      refine ⟨?_, fun hnew => ?_⟩
      · cases ok with
        | false => trivial
        | true =>
          intro hlate hfailed
          have hconnecting : relay.phase = .connecting := by
            rcases hcase with ⟨h, -⟩ | ⟨h, -⟩ | ⟨-, -, h⟩ | ⟨-, hdone, -⟩
            · cases h
            · cases h
            · exact h
            · rw [hfailed] at hdone
              cases hdone
          rcases hbetween hconnecting with hnil | ⟨hlt, hrunning⟩
          · simp at hnil
          · dsimp only at hlt hrunning
            rcases hlate with hlate | hlate
            · omega
            · rw [hrunning] at hlate
              cases hlate
      · obtain ⟨hlt, hrunning⟩ := hbegun (s.clock + pause, s.stop || raised) (by
          simp [List.tail_append_of_ne_nil hnew])
        obtain ⟨-, hraised⟩ := Bool.or_eq_false_iff.mp hrunning
        dsimp only at hlt
        exact ⟨fun hover => by omega, fun hover => by rw [hraised] at hover; cases hover.2⟩
  · rintro ⟨hreplay, hpause⟩
    refine ⟨between_step hs.between h hreplay, ?_⟩
    unfold Section.BegunInTime
    rw [hdeadline]
    cases h with
    | others | returns | release => exact hs.begun
    | confirm => exact hs.begun
    | @connect pause raised ok stop now replay relay hphase hnow hstop hstart hcase =>
      intro b hb
      by_cases hnew : s.begun = []
      · simp [hnew] at hb
      · rw [List.tail_append_of_ne_nil hnew] at hb
        rcases List.mem_append.mp hb with hb | hb
        · exact hs.begun b hb
        · obtain rfl := List.mem_singleton.mp hb
          obtain ⟨hover, hraised⟩ := hpause hnew
          rcases hs.between hphase with hnil | ⟨hlt, hrunning⟩
          · exact absurd hnil hnew
          · refine ⟨?_, ?_⟩
            · dsimp only
              omega
            · rw [hrunning, Bool.false_or]
              simpa [hrunning] using hraised

/-- In time after each step, exactly where each step meets the conditions. -/
theorem inTime_run_iff {group : GroupState} {tStart : Int} {stop : Bool} {as : List SectionAct}
    (hs : s.InTime) (h : (sectionLts i group tStart stop).run s as = some s') :
    (sectionLts i group tStart stop).Meets (fun s a => ∀ s' ∈ sectionStep i s a, s'.InTime) s as ↔
      (sectionLts i group tStart stop).Meets (fun s a => a.ReplayInTime s ∧ a.PauseInTime s) s as := by
  induction as generalizing s with
  | nil => exact Iff.rfl
  | cons a as ih =>
    obtain ⟨t, ht, h⟩ := Lts.run_cons.mp h
    have hiff := inTime_step_iff hs (sectionStep_move ht)
    have honly : ∀ t', sectionStep i s a = some t' → t' = t := fun t' ht' =>
      Option.some.inj (ht'.symm.trans ht)
    constructor
    · rintro ⟨hnow, hrest⟩
      refine ⟨hiff.mp (hnow t ht), fun t' ht' => ?_⟩
      obtain rfl := honly t' ht'
      exact (ih (hnow t' ht) h).mp (hrest t' ht')
    · rintro ⟨hnow, hrest⟩
      have hin := hiff.mpr hnow
      refine ⟨fun t' ht' => honly t' ht' ▸ hin, fun t' ht' => ?_⟩
      obtain rfl := honly t' ht'
      exact (ih hin h).mpr (hrest t' ht')

theorem inTime_start (i : Nat) (group : GroupState) (tStart : Int) (stop : Bool) :
    (sectionLts i group tStart stop).init.InTime :=
  ⟨fun _ => .inl rfl, fun b hb => by cases hb⟩

/-! ## The end of it -/

/-- A step of the thread itself. -/
def SectionAct.Own : SectionAct → Prop
  | .others _ => False
  | _ => True

def Section.Released (i : Nat) (s : Section) : Prop := ∃ ok, s.group.phase i = some (.released ok)

/-- The thread gets to run until it has given the `Group` back, its calls return, and
while it tries the time passes. -/
structure Fair (i : Nat) (s : Nat → Section) (a : Nat → SectionAct) : Prop where
  own : ∀ k, ¬ (s k).Released i → ∃ m, k ≤ m ∧ (a m).Own
  time : (∀ n, (s n).Inside) → ∀ t, ∃ n, t ≤ (s n).clock

section

variable {group : GroupState} {tStart : Int} {stop : Bool} {σ : Nat → Section}
  {act : Nat → SectionAct}

theorem placed_start (h : group.phase i = some .opening) :
    (sectionLts i group tStart stop).init.Placed i :=
  ⟨.inl h, fun _ => h, .inl (.inl rfl), fun _ => ⟨rfl, rfl⟩⟩

theorem not_released (hs : s.Placed i) (h : s.Inside) : ¬ s.Released i := by
  rintro ⟨ok, hreleased⟩
  have hopening := hs.inside h
  rw [hreleased] at hopening
  cases hopening

/-- Behind the deadline and still inside: an attempt is waited for, and was begun. -/
theorem confirming_late (hs : s.Placed i) (hbetween : s.Between) (hin : s.Inside)
    (hlate : s.deadline ≤ s.clock) : ∃ up t0, s.relay.phase = .confirming up t0 := by
  rcases hin with hphase | hphase
  · exfalso
    rcases hbetween hphase with hnil | ⟨hlt, -⟩
    · have hclock := (hs.fresh hnil).1
      unfold Section.deadline deadlineMs at hlate
      omega
    · omega
  · exact hphase

/-- While one attempt is waited for, it began to be at one time; and not for long. -/
theorem confirming_step {up : Attempt} {t0 : Int} (hphase : s.relay.phase = .confirming up t0)
    (hplaced : s.Placed i) (h : SectionMove i s a s') (hlate : s.deadline ≤ s.clock)
    (hin : s'.Inside) : (∃ up', s'.relay.phase = .confirming up' t0) ∧
      (t0 + quietMs ≤ s.clock → ¬ a.Own) := by
  have hinside : s.Inside := .inr ⟨up, t0, hphase⟩
  cases h with
  | others hothers hgroup => exact ⟨⟨up, hphase⟩, fun _ => not_false⟩
  | connect hphase' hnow hstop hstart hcase =>
    rw [hphase] at hphase'
    cases hphase'
  | @confirm pause raised stop now after poll read writes relay up1 t1 hphase' hnow hafter hstart
      hcase =>
    rw [hphase] at hphase'
    cases hphase'
    rcases hcase with ⟨hquiet, hwaiting⟩ | h | h | ⟨-, hlt, -⟩
    · exact ⟨hwaiting, fun hover _ => by omega⟩
    · exact absurd hin (not_inside (.inl h))
    · exact absurd hin (not_inside (.inr h))
    · omega
  | returns hret hgroup => exact absurd hinside (not_inside hret)
  | release hgroup =>
    obtain ⟨⟨ok, hopened, -⟩, -⟩ := GroupState.release_phase hgroup
    have hopening := hplaced.inside hinside
    rw [hopened] at hopening
    cases hopening

theorem path_placed (hpath : (sectionLts i group tStart stop).Path σ act)
    (hgroup : group.phase i = some .opening) (n : Nat) : (σ n).Placed i :=
  hpath.invariant (I := fun s => s.Placed i) (placed_start hgroup)
    (fun _ _ _ hs h => placed_step hs (sectionStep_move h)) n

theorem path_between (hpath : (sectionLts i group tStart stop).Path σ act)
    (hreplay : ∀ n, (act n).ReplayInTime (σ n)) (n : Nat) : (σ n).Between :=
  hpath.invariant_on (I := Section.Between) (C := fun s a => a.ReplayInTime s) (fun _ => .inl rfl)
    (fun _ _ _ hs ha h => between_step hs (sectionStep_move h) ha) hreplay n

/-- `stream_open_upstream` returns. -/
theorem path_returns (hpath : (sectionLts i group tStart stop).Path σ act)
    (hgroup : group.phase i = some .opening) (hreplay : ∀ n, (act n).ReplayInTime (σ n))
    (hfair : Fair i σ act) : ∃ n, (σ n).Returned := by
  by_contra hnever
  have hinside : ∀ n, (σ n).Inside := fun n =>
    (path_placed hpath hgroup n).relay.resolve_right fun h => hnever ⟨n, h⟩
  have hmove : ∀ n, SectionMove i (σ n) (act n) (σ (n + 1)) := fun n =>
    sectionStep_move (hpath.step n)
  have hdeadline : ∀ n, (σ n).deadline = (σ 0).deadline := by
    intro n
    induction n with
    | zero => rfl
    | succ n ih => exact (deadline_step (hmove n)).trans ih
  have hclock : ∀ k m, k ≤ m → (σ k).clock ≤ (σ m).clock := by
    intro k m hkm
    exact Lts.stays (P := fun n => (σ k).clock ≤ (σ n).clock)
      (fun n _ hn => Int.le_trans hn (clock_step (hmove n))) (Int.le_refl _) hkm
  -- from the deadline on one attempt is waited for
  obtain ⟨k, hk⟩ := hfair.time hinside (σ 0).deadline
  have hlate : ∀ m, k ≤ m → (σ m).deadline ≤ (σ m).clock := by
    intro m hm
    rw [hdeadline m]
    exact Int.le_trans hk (hclock k m hm)
  obtain ⟨up, t0, hphase⟩ := confirming_late (path_placed hpath hgroup k)
    (path_between hpath hreplay k) (hinside k) (hlate k (Nat.le_refl k))
  have hsame : ∀ m, k ≤ m → ∃ up, (σ m).relay.phase = .confirming up t0 := by
    intro m hm
    refine Lts.stays (P := fun n => ∃ up, (σ n).relay.phase = .confirming up t0)
      (fun n hn hwaiting => ?_) ⟨up, hphase⟩ hm
    obtain ⟨up, hwaiting⟩ := hwaiting
    exact (confirming_step hwaiting (path_placed hpath hgroup n) (hmove n) (hlate n hn)
      (hinside (n + 1))).1
  -- and no more than 300 ms
  obtain ⟨l, hl⟩ := hfair.time hinside (t0 + quietMs)
  obtain ⟨m, hm, hown⟩ := hfair.own (max k l)
    (not_released (path_placed hpath hgroup _) (hinside _))
  obtain ⟨up', hphase'⟩ := hsame m (by omega)
  refine (confirming_step hphase' (path_placed hpath hgroup m) (hmove m) (hlate m (by omega))
    (hinside (m + 1))).2 ?_ hown
  exact Int.le_trans hl (hclock l m (by omega))

/-- Behind the function the thread gives the `Group` back, and does nothing before. -/
theorem returns_next (hret : s.Returned) (hopening : s.group.phase i = some .opening)
    (h : SectionMove i s a s') : (s'.Returned ∧ ∃ ok, s'.group.phase i = some (.opened ok)) ∨
      ((s'.Returned ∧ s'.group.phase i = some .opening) ∧ ¬ a.Own) := by
  cases h with
  | others hothers hgroup =>
    exact .inr ⟨⟨hret, GroupState.phase_others hgroup hothers hopening (by simp)⟩, not_false⟩
  | connect hphase _ _ _ _ => exact absurd (.inl hphase) (not_inside hret)
  | confirm hphase _ _ _ _ => exact absurd (.inr ⟨_, _, hphase⟩) (not_inside hret)
  | returns _ hgroup => exact .inl ⟨hret, _, (GroupState.openReturns_phase hgroup).2⟩
  | release hgroup =>
    obtain ⟨⟨ok, hopened, -⟩, -⟩ := GroupState.release_phase hgroup
    rw [hopening] at hopened
    cases hopened

theorem release_next (hret : s.Returned) (hopened : ∃ ok, s.group.phase i = some (.opened ok))
    (h : SectionMove i s a s') : s'.Released i ∨
      ((s'.Returned ∧ ∃ ok, s'.group.phase i = some (.opened ok)) ∧ ¬ a.Own) := by
  obtain ⟨ok, hopened⟩ := hopened
  cases h with
  | others hothers hgroup =>
    exact .inr ⟨⟨hret, ok, GroupState.phase_others hgroup hothers hopened (by simp)⟩, not_false⟩
  | connect hphase _ _ _ _ => exact absurd (.inl hphase) (not_inside hret)
  | confirm hphase _ _ _ _ => exact absurd (.inr ⟨_, _, hphase⟩) (not_inside hret)
  | returns _ hgroup =>
    have hopening := (GroupState.openReturns_phase hgroup).1
    rw [hopened] at hopening
    cases hopening
  | release hgroup =>
    obtain ⟨⟨ok, -, hreleased⟩, -⟩ := GroupState.release_phase hgroup
    exact .inl ⟨ok, hreleased⟩

theorem path_released (hpath : (sectionLts i group tStart stop).Path σ act)
    (hgroup : group.phase i = some .opening) (hfair : Fair i σ act) {k : Nat}
    (hret : (σ k).Returned) : ∃ m, (σ m).Released i := by
  have hnot : ∀ {n p}, (σ n).group.phase i = some p → (∀ ok, p ≠ .released ok) →
      ¬ (σ n).Released i := by
    rintro n p hp hne ⟨ok, hreleased⟩
    exact hne ok (Option.some.inj (hp.symm.trans hreleased))
  have hopened : ∀ k, ((σ k).Returned ∧ ∃ ok, (σ k).group.phase i = some (.opened ok)) →
      ∃ m, (σ m).Released i := by
    intro k hk
    obtain ⟨m, -, hm⟩ := hpath.ends (O := SectionAct.Own)
      (P := fun s => s.Returned ∧ ∃ ok, s.group.phase i = some (.opened ok))
      (Q := fun s => s.Released i)
      (fun _ _ _ hs h => release_next hs.1 hs.2 (sectionStep_move h))
      (fun n hn => hfair.own n (hnot hn.2.choose_spec (by simp))) hk
    exact ⟨m, hm⟩
  rcases (path_placed hpath hgroup k).group with hopening | ⟨ok, hp | hp⟩
  · obtain ⟨m, -, hm⟩ := hpath.ends (O := SectionAct.Own)
      (P := fun s => s.Returned ∧ s.group.phase i = some .opening)
      (Q := fun s => s.Returned ∧ ∃ ok, s.group.phase i = some (.opened ok))
      (fun _ _ _ hs h => returns_next hs.1 hs.2 (sectionStep_move h))
      (fun n hn => hfair.own n (hnot hn.2 (by simp))) ⟨hret, hopening⟩
    exact hopened m hm
  · exact hopened k ⟨hret, ok, hp⟩
  · exact ⟨k, ok, hp⟩

/-- Only a release gets the thread behind its section. -/
theorem released_step (hs : s.Placed i) (h : SectionMove i s a s') (hnot : ¬ s.Released i)
    (hreleased : s'.Released i) : a = .release ∧ s'.group.busy = false ∧
      ∀ j, s'.group.phase j ≠ some .waiting := by
  obtain ⟨ok', hreleased⟩ := hreleased
  cases h with
  | others hothers hgroup =>
    exfalso
    rcases hs.group with hp | ⟨ok, hp | hp⟩
    · have hkept := GroupState.phase_others hgroup hothers hp (by simp)
      rw [hreleased] at hkept
      cases hkept
    · have hkept := GroupState.phase_others hgroup hothers hp (by simp)
      rw [hreleased] at hkept
      cases hkept
    · exact hnot ⟨ok, hp⟩
  | connect => exact absurd ⟨ok', hreleased⟩ hnot
  | confirm => exact absurd ⟨ok', hreleased⟩ hnot
  | returns _ hgroup =>
    have hopened := (GroupState.openReturns_phase hgroup).2
    rw [hreleased] at hopened
    cases hopened
  | release hgroup => exact ⟨rfl, (GroupState.release_phase hgroup).2⟩

theorem released_by (hpath : (sectionLts i group tStart stop).Path σ act)
    (hgroup : group.phase i = some .opening) {m : Nat} (h : (σ m).Released i) :
    ∃ n, act n = .release ∧ (σ (n + 1)).group.busy = false ∧
      ∀ j, (σ (n + 1)).group.phase j ≠ some .waiting := by
  induction m with
  | zero =>
    rw [hpath.init] at h
    exact absurd h (not_released (placed_start hgroup) (.inl rfl))
  | succ m ih =>
    by_cases hm : (σ m).Released i
    · exact ih hm
    · exact ⟨m, released_step (path_placed hpath hgroup m) (sectionStep_move (hpath.step m)) hm h⟩

end

/-- **No attempt is begun too late, and the `Group` is given back.** In every run all
stays in time exactly where no replay fails after the deadline or after `g_stop`, and no
pause before a new attempt goes over either: an attempt that fails too late makes the
function return, and no new one is begun. And in every run without an end in which no
replay fails too late, the thread gives the `Group` back, whatever the upstream, the
client and the other threads do. -/
theorem upstream_in_time {group : GroupState} (hgroup : group.phase i = some .opening)
    (tStart : Int) (stop : Bool) :
    (∀ as s, (sectionLts i group tStart stop).run (sectionLts i group tStart stop).init as = some s →
      ((sectionLts i group tStart stop).Meets (fun s a => ∀ s' ∈ sectionStep i s a, s'.InTime)
          (sectionLts i group tStart stop).init as ↔
        (sectionLts i group tStart stop).Meets (fun s a => a.ReplayInTime s ∧ a.PauseInTime s)
          (sectionLts i group tStart stop).init as)) ∧
    ∀ σ act, (sectionLts i group tStart stop).Path σ act →
      (∀ n, (act n).ReplayInTime (σ n)) → Fair i σ act →
        ∃ n, act n = .release ∧ (σ (n + 1)).group.busy = false ∧
          ∀ j, (σ (n + 1)).group.phase j ≠ some .waiting := by
  refine ⟨fun as s h => inTime_run_iff (inTime_start i group tStart stop) h, ?_⟩
  intro σ act hpath hreplay hfair
  obtain ⟨k, hret⟩ := path_returns hpath hgroup hreplay hfair
  obtain ⟨m, hm⟩ := path_released hpath hgroup hfair hret
  exact released_by hpath hgroup hm

/-- The run without an end of these steps, as long as they can be taken. -/
def follow (i : Nat) (s : Section) (act : Nat → SectionAct) : Nat → Section
  | 0 => s
  | n + 1 => (sectionStep i (follow i s act n) (act n)).getD (follow i s act n)

theorem path_follow {group : GroupState} {tStart : Int} {stop : Bool} {act : Nat → SectionAct}
    (h : ∀ n, (sectionStep i (follow i (sectionLts i group tStart stop).init act n) (act n)).isSome) :
    (sectionLts i group tStart stop).Path (follow i (sectionLts i group tStart stop).init act)
      act where
  init := rfl
  step n := by
    obtain ⟨s', hs'⟩ := Option.isSome_iff_exists.mp (h n)
    show sectionStep i _ _ = some ((sectionStep i _ _).getD _)
    rw [hs', Option.getD_some]

/-- A port with one connection, which has the `Group`. -/
def oneOpening : GroupState := ⟨true, [.opening], []⟩

/-- The upstream keeps quiet, and is returned; after that connections come that get no
thread. -/
def quietAct : Nat → SectionAct
  | 0 => .iterate 5 false (.connect true false 100 [])
  | 1 => .iterate 0 false (.confirm 110 .timeout .eof [] false 400)
  | 2 => .returns
  | 3 => .release
  | _ => .others (.accept false)

theorem quietAct_path : (sectionLts 0 oneOpening 0 false).Path
    (follow 0 (sectionLts 0 oneOpening 0 false).init quietAct) quietAct := by
  refine path_follow fun n => ?_
  rcases n with _ | _ | _ | _ | n <;> rfl

theorem quietAct_released (k : Nat) :
    (follow 0 (sectionLts 0 oneOpening 0 false).init quietAct (k + 4)).Released 0 := by
  induction k with
  | zero => exact ⟨true, rfl⟩
  | succ k ih =>
    obtain ⟨ok, hreleased⟩ := ih
    have hstep : sectionStep 0 (follow 0 (sectionLts 0 oneOpening 0 false).init quietAct (k + 4))
        (.others (.accept false)) =
          some (follow 0 (sectionLts 0 oneOpening 0 false).init quietAct (k + 5)) :=
      quietAct_path.step (k + 4)
    cases sectionStep_move hstep with
    | others hothers hgroup =>
      exact ⟨ok, GroupState.phase_others hgroup hothers hreleased (by simp)⟩

theorem quietAct_fair : Fair 0 (follow 0 (sectionLts 0 oneOpening 0 false).init quietAct)
    quietAct where
  own k hk := by
    rcases k with _ | _ | _ | _ | k
    · exact ⟨0, Nat.le_refl _, trivial⟩
    · exact ⟨1, Nat.le_refl _, trivial⟩
    · exact ⟨2, Nat.le_refl _, trivial⟩
    · exact ⟨3, Nat.le_refl _, trivial⟩
    · exact absurd (quietAct_released k) hk
  time h := absurd (h 2) (not_inside (.inl ⟨.fresh, rfl⟩))

theorem quietAct_replay (n : Nat) : (quietAct n).ReplayInTime
    (follow 0 (sectionLts 0 oneOpening 0 false).init quietAct n) := by
  rcases n with _ | _ | _ | _ | n
  · intro _
    decide
  all_goals trivial

theorem upstream_in_time_quiet : ∃ n, quietAct n = .release ∧
    (follow 0 (sectionLts 0 oneOpening 0 false).init quietAct (n + 1)).group.busy = false := by
  obtain ⟨n, hrelease, hbusy, -⟩ := (@upstream_in_time 0 oneOpening rfl 0 false).2 _ quietAct
    quietAct_path quietAct_replay quietAct_fair
  exact ⟨n, hrelease, hbusy⟩

/-- The client sends a byte, the upstream is closed; from then on every `connect` succeeds
and every replay fails, once a second. -/
def spinAct : Nat → SectionAct
  | 0 => .iterate 0 false (.connect true false 0 [])
  | 1 => .iterate 0 false (.confirm 10 (.ready true false) (.data [7]) [.wrote 1] false 20)
  | 2 => .iterate 0 false (.confirm 30 (.ready false true) .eof [] false 40)
  | n + 3 => .iterate 200 false (.connect true false (1000 * (n + 1)) [.fault .other])

/-- Where it is after the first three. -/
structure Spun (n : Nat) (s : Section) : Prop where
  phase : s.relay.phase = .connecting
  pre : s.relay.pre.bytes = [7]
  clock : s.clock ≤ 1000 * n + 40
  late : n ≠ 0 → s.clock = 1000 * n
  stop : s.stop = false

theorem spun_step {n : Nat} {s : Section} (h : Spun n s) :
    ∃ s', sectionStep 0 s (spinAct (n + 3)) = some s' ∧ Spun (n + 1) s' := by
  have hnow : s.clock + (200 : Nat) ≤ 1000 * ((n : Int) + 1) := by
    have := h.clock
    omega
  have hrelay : relayStep s.relay (.connect true false (1000 * (n + 1)) [.fault .other]) =
      some { s.relay with closed := s.relay.closed ++ [.fresh] } := by
    unfold relayStep
    rw [h.phase]
    simp only [Relay.connect, Relay.toUpFull, h.pre]
    rfl
  have hstep : sectionStep 0 s (spinAct (n + 3)) = some
      { s with
        relay := { s.relay with closed := s.relay.closed ++ [.fresh] }
        clock := 1000 * (n + 1)
        stop := false
        begun := s.begun ++ [(s.clock + (200 : Nat), s.stop || false)] } := by
    simp only [spinAct, sectionStep, Section.iterate, RelayAct.timed]
    rw [if_pos ⟨hnow, by simp [h.stop]⟩, Option.bind_some, hrelay]
    rfl
  refine ⟨_, hstep, h.phase, h.pre, ?_, fun _ => ?_, rfl⟩
  · push_cast
    omega
  · push_cast
    rfl

theorem spun_follow (n : Nat) :
    Spun n (follow 0 (sectionLts 0 oneOpening 0 false).init spinAct (n + 3)) := by
  induction n with
  | zero => exact ⟨rfl, rfl, by decide, fun h => absurd rfl h, rfl⟩
  | succ n ih =>
    obtain ⟨s', hstep, hs'⟩ := spun_step ih
    have hnext : follow 0 (sectionLts 0 oneOpening 0 false).init spinAct (n + 4) = s' := by
      show (sectionStep 0 _ _).getD _ = s'
      rw [hstep, Option.getD_some]
    rw [hnext]
    exact hs'

theorem spinAct_path : (sectionLts 0 oneOpening 0 false).Path
    (follow 0 (sectionLts 0 oneOpening 0 false).init spinAct) spinAct := by
  refine path_follow fun n => ?_
  rcases n with _ | _ | _ | n
  · rfl
  · rfl
  · rfl
  · obtain ⟨s', hstep, -⟩ := spun_step (spun_follow n)
    rw [hstep]
    rfl

theorem spinAct_own (n : Nat) : (spinAct n).Own ∧ spinAct n ≠ .release := by
  rcases n with _ | _ | _ | n <;> exact ⟨trivial, by simp [spinAct]⟩

theorem spinAct_fair : Fair 0 (follow 0 (sectionLts 0 oneOpening 0 false).init spinAct)
    spinAct where
  own k _ := ⟨k, Nat.le_refl k, (spinAct_own k).1⟩
  time _ t := by
    refine ⟨t.toNat + 1 + 3, ?_⟩
    rw [(spun_follow (t.toNat + 1)).late (Nat.succ_ne_zero _)]
    omega

/-- With this upstream the function never returns, and attempts are begun after the
deadline for as long as the port is there. -/
theorem upstream_spins : ¬ ∀ σ act, (sectionLts 0 oneOpening 0 false).Path σ act → Fair 0 σ act →
    (∃ n, act n = .release) ∧ ∀ n, (σ n).InTime := by
  intro hall
  obtain ⟨⟨n, hrelease⟩, -⟩ := hall _ spinAct spinAct_path spinAct_fair
  exact (spinAct_own n).2 hrelease

end RigControl.Agent
