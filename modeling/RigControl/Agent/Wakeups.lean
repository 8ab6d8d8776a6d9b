import RigControl.Agent.Group

/-!
# No thread sleeps for good

The mutex of a `Group` is free between any two sections, and `pthread_cond_wait` gives
it up and sleeps at once, so a thread sleeps only while `busy` is 1. The thread that
has set `busy` clears it in the section that also broadcasts: until then the sleeping
threads have a wake-up to come, and it reaches them all. The flag and its holder are
the resource of threads that take turns (`Turns.exclusive_run`).
-/

namespace RigControl.Agent

open RigControl.Lib

namespace GroupState

/-- The thread is between setting `busy` and clearing it. -/
def Holds (s : GroupState) (i : Nat) : Prop :=
  s.phase i = some .opening ∨ ∃ ok, s.phase i = some (.opened ok)

/-- The thread waits on the condition variable and nothing has notified it. -/
def Sleeps (s : GroupState) (j : Nat) : Prop := s.phase j = some .waiting

/-- Nobody sleeps while `busy` is 0. -/
def Awake (s : GroupState) : Prop := s.busy = false → ∀ j, ¬s.Sleeps j

variable {s s' : GroupState} {i j : Nat} {p q : Phase}

theorem holds_turns : s.turns.Holds i ↔ s.Holds i := by
  simp only [Turns.Holds, Turns.turn, turns, List.getElem?_map, Holds, phase]
  cases s.conns[i]? with
  | none => simp
  | some p => cases p <;> simp [Phase.turn, Turn.holds]

theorem sleeps_put (hi : s.phase i = some p) (hq : q ≠ .waiting) (h : (s.put i q).Sleeps j) :
    s.Sleeps j := by
  by_cases hij : i = j
  · subst hij
    exact absurd (Option.some.inj ((phase_put_self hi q).symm.trans h)) hq
  · exact (phase_put_ne hij q).symm.trans h

theorem awake_takeOrWait (s : GroupState) (i : Nat) : (takeOrWait s i).Awake := by
  intro hb
  unfold takeOrWait at hb
  split at hb
  · rename_i hbusy
    exact absurd hbusy (by simpa [put] using hb)
  · cases hb

theorem sleeps_accept {spawned : Bool}
    (h : ({ s with conns := s.conns ++ [if spawned then .started else .dropped] } :
      GroupState).Sleeps j) : s.Sleeps j := by
  simp only [Sleeps, phase, List.getElem?_append, List.getElem?_singleton] at h
  split at h
  · exact h
  · split at h
    · cases spawned <;> cases h
    · cases h

/-- Only a thread that finds `busy` set goes to sleep, and only the section that
broadcasts clears `busy`. -/
theorem awake_step {a : GroupAct} (h : s.Awake) (hs : groupStep s a = some s') : s'.Awake := by
  cases a with
  | accept spawned =>
    cases hs
    exact fun hb j hj => h hb j (sleeps_accept hj)
  | enter i =>
    obtain ⟨-, rfl⟩ := groupStep_enter hs
    exact awake_takeOrWait s i
  | wakeup i =>
    obtain ⟨hp, rfl⟩ := groupStep_wakeup hs
    exact fun hb j hj => h hb j (sleeps_put hp (by simp) hj)
  | openReturns i ok =>
    obtain ⟨hp, rfl⟩ := groupStep_openReturns hs
    exact fun hb j hj => h hb j (sleeps_put hp (by simp) hj)
  | release i => exact fun _ j hj => (release_phase hs).2.2 j hj

theorem awake_run {as : List GroupAct} (h : groupLts.run groupLts.init as = some s) : s.Awake :=
  have h0 : groupLts.init.Awake := by simp [groupLts, GroupState.init, Awake, Sleeps, phase]
  have hstep : ∀ s a s', Awake s → groupLts.step s a = some s' → Awake s' :=
    fun _ _ _ hs h => awake_step hs h
  Lts.invariant hstep h0 h

theorem exclusive_run {as : List GroupAct} (h : groupLts.run groupLts.init as = some s) :
    s.turns.Exclusive := by
  obtain ⟨ms, hms, -⟩ := groupTurns.run (C := fun _ _ => True) (D := fun _ _ => True)
    (fun _ _ _ _ _ => trivial) (Lts.meets_true _ as) h
  exact Turns.exclusive_run hms

/-- The holder's last section wakes every thread that sleeps. -/
theorem release_wakes (hj : s.Sleeps j) (hs : groupStep s (.release i) = some s') :
    s'.phase j = some .woken := by
  obtain ⟨ok, hp, rfl⟩ := groupStep_release hs
  have hij : i ≠ j := by
    rintro rfl
    rw [Sleeps, hp] at hj
    cases hj
  show (s.put i (.released ok)).broadcast.phase j = some .woken
  rw [phase_broadcast, phase_put_ne hij, hj]
  rfl

/-- Nothing else takes `busy` from its holder. -/
theorem holds_step {a : GroupAct} (hi : s.Holds i) (hs : groupStep s a = some s') :
    a = .release i ∨ s'.Holds i := by
  by_cases ha : a.Of i
  · cases a with
    | accept spawned => cases ha
    | enter k =>
      obtain rfl : k = i := ha
      obtain ⟨hp | hp, -⟩ := groupStep_enter hs <;> simp [Holds, hp] at hi
    | wakeup k =>
      obtain rfl : k = i := ha
      simp [Holds, (groupStep_wakeup hs).1] at hi
    | openReturns k ok =>
      obtain rfl : k = i := ha
      exact .inr (.inr ⟨ok, (openReturns_phase hs).2⟩)
    | release k => exact .inl (congrArg _ ha)
  · rcases hi with hi | ⟨ok, hi⟩
    · exact .inr (.inl (phase_others hs ha hi (by simp)))
    · exact .inr (.inr ⟨ok, phase_others hs ha hi (by simp)⟩)

end GroupState

open GroupState

/-- **One holder, and no wake-up lost.** In every run of the threads of a `Group` one
thread at a time is between setting `busy` and clearing it, and `busy` is 1 exactly
while one is. A thread that waits without having been notified has a wake-up to come:
`busy` is 1, nothing but its holder's last section takes it from the holder, and that
section wakes the thread. -/
theorem group_wakeups {as : List GroupAct} {s : GroupState}
    (h : groupLts.run groupLts.init as = some s) :
    (∀ i j, s.Holds i → s.Holds j → i = j) ∧
    (s.busy = true ↔ ∃ i, s.Holds i) ∧
    ∀ j, s.Sleeps j → s.busy = true ∧ ∃ i, s.Holds i ∧
      (∀ a s', groupStep s a = some s' → a ≠ .release i → s'.Holds i) ∧
      ∀ s', groupStep s (.release i) = some s' → s'.phase j = some .woken := by
  have hexcl := exclusive_run h
  have hbusy : s.busy = true ↔ ∃ i, s.Holds i :=
    hexcl.busy.trans (exists_congr fun _ => holds_turns)
  refine ⟨fun i j hi hj => hexcl.excl i j (holds_turns.mpr hi) (holds_turns.mpr hj), hbusy, ?_⟩
  intro j hj
  have hb : s.busy = true := by
    by_contra hb
    exact awake_run h (by simpa using hb) j hj
  obtain ⟨i, hi⟩ := hbusy.mp hb
  exact ⟨hb, i, hi, fun a s' hs ha => (holds_step hi hs).resolve_left ha,
    fun s' hs => release_wakes hj hs⟩

/-- The second thread sleeps while the first opens its upstream. -/
theorem group_wakeups_second :
    ∃ s, groupLts.run groupLts.init [.accept true, .accept true, .enter 0, .enter 1] = some s ∧
      s.Sleeps 1 ∧ s.busy = true ∧ ∃ i, s.Holds i := by
  refine ⟨_, rfl, rfl, ?_⟩
  obtain ⟨hb, i, hi, -⟩ := (@group_wakeups
    [.accept true, .accept true, .enter 0, .enter 1] _ rfl).2.2 1 rfl
  exact ⟨hb, i, hi⟩

end RigControl.Agent
