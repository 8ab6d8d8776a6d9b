import RigControl.Lib.Turns
import RigControl.Server.DesktopConnection

/-!
# Taking turns on a stream port

`conn_thread` of `frontends/agent/net.c`, as far as the threads of one stream public
port share a `Group`: a mutex, a condition variable and the flag `busy`. The accept
loop numbers the connections in the order in which it accepts them and starts a
thread for each; a thread takes the `Group`, runs `stream_open_upstream` and gives
the `Group` back. Each mutex-protected section is one step. `pthread_cond_wait`
splits the first section in two: a thread that finds the `Group` busy waits, and
looks again when it has been woken, by the broadcast or by nothing at all.

Seen from outside, the threads take turns (`groupTurns` refines this model to
`turnsLts`), and which waiting thread comes next is left open: the order of the
connections is kept in the runs in which the `Group` always goes to the earliest
connection that wants it, and not in others.
-/

namespace RigControl.Agent

open RigControl.Lib

/-- Where the thread of a connection is: `dropped` when the accept loop could not
start one, `started` before the first section, `waiting` in `pthread_cond_wait`,
`woken` behind it, `opening` inside `stream_open_upstream`, `opened` when that has
returned, `released` behind the last section. -/
inductive Phase where
  | dropped | started | waiting | woken | opening
  | opened (ok : Bool)
  | released (ok : Bool)
  deriving DecidableEq, Repr

/-- The `Group` of a port, its connections in the order in which they were accepted,
and those whose `stream_open_upstream` succeeded, in the order in which it did. -/
structure GroupState where
  busy : Bool
  conns : List Phase
  completed : List Nat
  deriving DecidableEq, Repr

inductive GroupAct where
  /-- The accept loop takes a connection and starts a thread for it, or drops it. -/
  | accept (spawned : Bool)
  /-- A thread looks at `busy`, with the mutex locked. -/
  | enter (i : Nat)
  /-- A waiting thread wakes up without a broadcast. -/
  | wakeup (i : Nat)
  /-- `stream_open_upstream` returns. -/
  | openReturns (i : Nat) (ok : Bool)
  /-- `busy = 0`, and the broadcast. -/
  | release (i : Nat)
  deriving DecidableEq, Repr

namespace GroupState

def init : GroupState := { busy := false, conns := [], completed := [] }

def phase (s : GroupState) (i : Nat) : Option Phase := s.conns[i]?

def put (s : GroupState) (i : Nat) (p : Phase) : GroupState :=
  { s with conns := s.conns.set i p }

/-- `pthread_cond_broadcast`: every waiting thread is woken. -/
def broadcast (s : GroupState) : GroupState :=
  { s with conns := s.conns.map fun p => if p = .waiting then .woken else p }

end GroupState

open GroupState

/-- `while (busy) wait; busy = 1`, up to the wait or to the end. -/
def takeOrWait (s : GroupState) (i : Nat) : GroupState :=
  if s.busy then s.put i .waiting else { s.put i .opening with busy := true }

def groupStep (s : GroupState) : GroupAct → Option GroupState
  | .accept spawned =>
    some { s with conns := s.conns ++ [if spawned then .started else .dropped] }
  | .enter i =>
    match s.phase i with
    | some .started => some (takeOrWait s i)
    | some .woken => some (takeOrWait s i)
    | _ => none
  | .wakeup i =>
    match s.phase i with
    | some .waiting => some (s.put i .woken)
    | _ => none
  | .openReturns i ok =>
    match s.phase i with
    | some .opening =>
      some { s.put i (.opened ok) with
        completed := if ok then s.completed ++ [i] else s.completed }
    | _ => none
  | .release i =>
    match s.phase i with
    | some (.opened ok) => some { (s.put i (.released ok)).broadcast with busy := false }
    | _ => none

/-- A step of thread `i`. -/
def GroupAct.Of (i : Nat) : GroupAct → Prop
  | .accept _ => False
  | .enter j | .wakeup j | .openReturns j _ | .release j => j = i

instance (i : Nat) : (a : GroupAct) → Decidable (a.Of i)
  | .accept _ => instDecidableFalse
  | .enter _ | .wakeup _ | .openReturns _ _ | .release _ => Nat.decEq _ _

/-- The threads of one stream port. -/
def groupLts : Lts GroupState GroupAct := { init := GroupState.init, step := groupStep }

/-! ## Threads that take turns -/

def Phase.turn : Phase → Turn
  | .dropped => .never
  | .started | .waiting | .woken => .pending
  | .opening => .inside
  | .opened ok => .finished ok
  | .released ok => .left ok

namespace GroupState

def turns (s : GroupState) : Turns :=
  { busy := s.busy, clients := s.conns.map Phase.turn, done := s.completed }

/-- The turn a step is, if it is one: a thread that looks at `busy` takes its turn
only when the `Group` is free. -/
def move (s : GroupState) : GroupAct → Option Move
  | .accept spawned => some (.arrive spawned)
  | .enter i => if s.busy then none else some (.take i)
  | .wakeup _ => none
  | .openReturns i ok => some (.finish i ok)
  | .release i => some (.leave i)

variable {s : GroupState} {i : Nat} {p : Phase}

theorem turn_turns (h : s.phase i = some p) : s.turns.turn i = some p.turn := by
  unfold phase at h
  simp only [Turns.turn, turns, List.getElem?_map, h, Option.map_some]

theorem turns_put (s : GroupState) (i : Nat) (q : Phase) :
    (s.put i q).turns = s.turns.put i q.turn := by
  simp only [turns, put, Turns.put, List.map_set]

/-- Waiting and waking up is not seen from outside. -/
theorem turns_put_same (h : s.phase i = some p) {q : Phase} (hq : q.turn = p.turn) :
    (s.put i q).turns = s.turns := by
  have hi : s.turns.clients[i]? = some q.turn := hq ▸ turn_turns h
  rw [turns_put, Turns.put]
  obtain ⟨hlt, hget⟩ := List.getElem?_eq_some_iff.mp hi
  rw [← hget, List.set_getElem_self]

theorem turns_broadcast (s : GroupState) : s.broadcast.turns = s.turns := by
  have hturn : ∀ p : Phase, (if p = .waiting then Phase.woken else p).turn = p.turn := by
    intro p
    cases p <;> rfl
  simp only [turns, broadcast, List.map_map]
  congr 2
  funext p
  exact hturn p

theorem turn_pending (h : s.phase i = some .started ∨ s.phase i = some .woken) :
    s.turns.turn i = some .pending := by
  rcases h with h | h <;> exact turn_turns h

variable {s' : GroupState}

theorem groupStep_enter (h : groupStep s (.enter i) = some s') :
    (s.phase i = some .started ∨ s.phase i = some .woken) ∧ s' = takeOrWait s i := by
  simp only [groupStep] at h
  split at h
  · rename_i hp
    exact ⟨.inl hp, (Option.some.inj h).symm⟩
  · rename_i hp
    exact ⟨.inr hp, (Option.some.inj h).symm⟩
  · cases h

theorem groupStep_wakeup (h : groupStep s (.wakeup i) = some s') :
    s.phase i = some .waiting ∧ s' = s.put i .woken := by
  simp only [groupStep] at h
  split at h
  · rename_i hp
    exact ⟨hp, (Option.some.inj h).symm⟩
  · cases h

theorem groupStep_openReturns {ok : Bool} (h : groupStep s (.openReturns i ok) = some s') :
    s.phase i = some .opening ∧ s' = { s.put i (.opened ok) with
      completed := if ok then s.completed ++ [i] else s.completed } := by
  simp only [groupStep] at h
  split at h
  · rename_i hp
    exact ⟨hp, (Option.some.inj h).symm⟩
  · cases h

theorem groupStep_release (h : groupStep s (.release i) = some s') :
    ∃ ok, s.phase i = some (.opened ok) ∧
      s' = { (s.put i (.released ok)).broadcast with busy := false } := by
  simp only [groupStep] at h
  split at h
  · rename_i ok hp
    exact ⟨ok, hp, (Option.some.inj h).symm⟩
  · cases h

/-! ### Where the threads are -/

theorem phase_put_ne {j : Nat} (h : j ≠ i) (q : Phase) : (s.put j q).phase i = s.phase i :=
  List.getElem?_set_ne h

theorem phase_put_self (h : s.phase i = some p) (q : Phase) : (s.put i q).phase i = some q :=
  List.getElem?_set_self (List.getElem?_eq_some_iff.mp h).1

theorem phase_broadcast (s : GroupState) (i : Nat) : s.broadcast.phase i =
    (s.phase i).map fun p => if p = .waiting then .woken else p :=
  List.getElem?_map

/-- Where a thread is that does not wait, the others leave it. -/
theorem phase_others {a : GroupAct} (h : groupStep s a = some s') (ha : ¬ a.Of i)
    (hp : s.phase i = some p) (hne : p ≠ .waiting) : s'.phase i = some p := by
  cases a with
  | accept spawned =>
    cases h
    exact (List.getElem?_append_left (List.getElem?_eq_some_iff.mp hp).1).trans hp
  | enter j =>
    have hput : ∀ q, (s.put j q).phase i = some p := fun q => (phase_put_ne ha q).trans hp
    have htake : (takeOrWait s j).phase i = some p := by
      unfold takeOrWait
      split
      · exact hput _
      · exact hput _
    obtain ⟨-, rfl⟩ := groupStep_enter h
    exact htake
  | wakeup j =>
    obtain ⟨-, rfl⟩ := groupStep_wakeup h
    exact (phase_put_ne ha _).trans hp
  | openReturns j ok =>
    obtain ⟨-, rfl⟩ := groupStep_openReturns h
    exact (phase_put_ne ha _).trans hp
  | release j =>
    obtain ⟨ok, -, rfl⟩ := groupStep_release h
    show (broadcast _).phase i = some p
    rw [phase_broadcast, phase_put_ne ha, hp, Option.map_some, if_neg hne]

theorem openReturns_phase {ok : Bool} (h : groupStep s (.openReturns i ok) = some s') :
    s.phase i = some .opening ∧ s'.phase i = some (.opened ok) := by
  obtain ⟨hp, rfl⟩ := groupStep_openReturns h
  exact ⟨hp, phase_put_self hp _⟩

/-- The `Group` is free, and nobody waits for it any more. -/
theorem release_phase (h : groupStep s (.release i) = some s') :
    (∃ ok, s.phase i = some (.opened ok) ∧ s'.phase i = some (.released ok)) ∧
      s'.busy = false ∧ ∀ j, s'.phase j ≠ some .waiting := by
  obtain ⟨ok, hp, rfl⟩ := groupStep_release h
  refine ⟨⟨ok, hp, ?_⟩, rfl, fun j hj => ?_⟩
  · show (broadcast _).phase i = _
    rw [phase_broadcast, phase_put_self hp]
    rfl
  · have hj' : (broadcast (s.put i (.released ok))).phase j = some .waiting := hj
    rw [phase_broadcast] at hj'
    obtain ⟨q, -, hq⟩ := Option.map_eq_some_iff.mp hj'
    split at hq
    · cases hq
    · rename_i hne
      exact hne hq

end GroupState

/-- The threads of a port take turns. -/
def groupTurns : Refinement groupLts turnsLts where
  abs := turns
  move := move
  init := rfl
  quiet := by
    intro s a s' h hm
    cases a with
    | enter i =>
      obtain ⟨hp, rfl⟩ := groupStep_enter h
      have hb : s.busy = true := by
        by_contra hb
        simp [move, hb] at hm
      simp only [takeOrWait, hb, ↓reduceIte]
      rcases hp with hp | hp <;> exact turns_put_same hp rfl
    | wakeup i =>
      obtain ⟨hp, rfl⟩ := groupStep_wakeup h
      exact turns_put_same hp rfl
    | _ => cases hm
  step := by
    intro s a s' b h hm
    cases a with
    | accept spawned =>
      cases hm
      cases h
      cases spawned <;> simp [turnsLts, Turns.step, turns, Phase.turn]
    | enter i =>
      obtain ⟨hp, rfl⟩ := groupStep_enter h
      have hpend := turn_pending hp
      have hb : s.busy = false := by
        by_contra hb
        simp [move, hb] at hm
      simp only [move, hb, Bool.false_eq_true, ↓reduceIte, Option.some.injEq] at hm
      subst hm
      have hfree : s.turns.busy = false := hb
      simp only [takeOrWait, hb, Bool.false_eq_true, ↓reduceIte]
      show s.turns.step (.take i) = some { (s.put i .opening).turns with busy := true }
      rw [turns_put, Turns.step, if_pos ⟨hpend, hfree⟩]
      rfl
    | wakeup i => cases hm
    | openReturns i ok =>
      cases hm
      obtain ⟨hp, rfl⟩ := groupStep_openReturns h
      have hturn : s.turns.turn i = some .inside := turn_turns hp
      show s.turns.step (.finish i ok) = some { (s.put i (.opened ok)).turns with
        done := if ok then s.completed ++ [i] else s.completed }
      rw [turns_put, Turns.step, if_pos hturn]
      rfl
    | release i =>
      cases hm
      obtain ⟨ok, hp, rfl⟩ := groupStep_release h
      have hturn : s.turns.turn i = some (.finished ok) := turn_turns hp
      show s.turns.step (.leave i) =
        some { (s.put i (.released ok)).broadcast.turns with busy := false }
      rw [turns_broadcast, turns_put, Turns.step, hturn]
      rfl

/-! ## The order of the connections -/

/-- The `Group` goes to the earliest connection that has yet to take it. -/
def EarliestEnters (s : GroupState) : GroupAct → Prop
  | .enter i => s.busy = false → ∀ j < i, s.turns.turn j ≠ some .pending
  | _ => True

/-- Every connection gets a thread and its upstream. -/
def NoneLost : GroupState → GroupAct → Prop
  | _, .accept spawned => spawned = true
  | _, .openReturns _ ok => ok = true
  | _, _ => True

instance (s : GroupState) (a : GroupAct) : Decidable (EarliestEnters s a) := by
  cases a <;> simp only [EarliestEnters] <;> infer_instance

instance (s : GroupState) (a : GroupAct) : Decidable (NoneLost s a) := by
  cases a <;> simp only [NoneLost] <;> infer_instance

theorem earliestEnters_inTurn (s : GroupState) (a : GroupAct) (m : Move)
    (h : EarliestEnters s a) (hm : s.move a = some m) : InTurn s.turns m := by
  cases a with
  | enter i =>
    simp only [move] at hm
    split at hm
    · cases hm
    · rename_i hb
      cases hm
      exact h (by simpa using hb)
  | wakeup i => cases hm
  | _ => cases hm; trivial

theorem noneLost_noLoss (s : GroupState) (a : GroupAct) (m : Move)
    (h : NoneLost s a) (hm : s.move a = some m) : NoLoss s.turns m := by
  cases a with
  | enter i =>
    simp only [move] at hm
    split at hm
    · cases hm
    · cases hm
      trivial
  | wakeup i => cases hm
  | release i => cases hm; trivial
  | _ => cases hm; exact h

/-- A run that always serves the earliest connection completes the connections in the
order in which they were accepted. -/
theorem completed_sorted {as : List GroupAct} {s : GroupState}
    (hrun : groupLts.run groupLts.init as = some s)
    (hC : groupLts.Meets EarliestEnters groupLts.init as) : s.completed.Pairwise (· < ·) := by
  obtain ⟨ms, hms, hmeets⟩ := groupTurns.run earliestEnters_inTurn hC hrun
  exact InTurn.sorted hmeets hms

/-- If besides no connection is lost, it completes the first ones, all of them. -/
theorem completed_range {as : List GroupAct} {s : GroupState}
    (hrun : groupLts.run groupLts.init as = some s)
    (hC : groupLts.Meets EarliestEnters groupLts.init as)
    (hD : groupLts.Meets NoneLost groupLts.init as) :
    s.completed = List.range s.completed.length := by
  have hCD : ∀ s a m, EarliestEnters s a ∧ NoneLost s a → groupTurns.move s a = some m →
      InTurn (groupTurns.abs s) m ∧ NoLoss (groupTurns.abs s) m := fun s a m h hm =>
    ⟨earliestEnters_inTurn s a m h.1 hm, noneLost_noLoss s a m h.2 hm⟩
  obtain ⟨ms, hms, hmeets⟩ := groupTurns.run (D := fun t m => InTurn t m ∧ NoLoss t m) hCD
    (hC.and hD) hrun
  exact InTurn.complete hmeets hms

open RigControl.Server in
/-- Connections that reach `openTcp` one by one, each with the token, get the channels
in the order in which they come. -/
theorem openTcp_ids {options : Options} {token : List UInt8} (ho : options.token = some token)
    (ht : token.length = Protocol.lanTokenLen) {conns : List Connection}
    (hlen : conns.length = options.channels.length) (hc : ∀ c ∈ conns, c.SendsToken token) :
    (openTcp options (.new conns)).2.registered.map (fun p => (p.1, p.2.id)) =
      options.channels.zip (conns.map Connection.id) := by
  obtain ⟨-, -, -, -, -, -, -, -, h, -⟩ := fill_interleave ht ho (l := .new conns) hlen
    (.refl_left conns) hc (by simp)
  have hview := congrArg (List.map fun v => (v.1, v.2.1)) h
  have hzip : options.channels.zip (conns.map Connection.id) =
      (options.channels.zip conns).map fun p => (p.1, p.2.id) := by
    rw [List.zip_map_right]
    rfl
  rw [openTcp_eq_fill, hzip]
  simpa [Listener.new, view, served, Function.comp_def] using hview

open RigControl.Server in
/-- **In order, when the earliest goes first.** In every run in which the `Group` only
goes to the earliest connection that has yet to take it, the connections whose
upstream opens complete in the order in which they were accepted; and if every
connection gets a thread and its upstream, each channel of rc-server gets the
connection that was opened for it. -/
theorem group_in_order {as : List GroupAct} {s : GroupState}
    (hrun : groupLts.run groupLts.init as = some s)
    (hC : groupLts.Meets EarliestEnters groupLts.init as) :
    s.completed.Pairwise (· < ·) ∧
    (groupLts.Meets NoneLost groupLts.init as →
      ∀ (options : Options) (token : List UInt8) (conn : Nat → Connection),
        options.token = some token → token.length = Protocol.lanTokenLen →
        (∀ i, (conn i).id = i) → (∀ i, (conn i).SendsToken token) →
        s.completed.length = options.channels.length →
        (openTcp options (.new (s.completed.map conn))).2.registered.map
          (fun p => (p.1, p.2.id)) =
          options.channels.zip (List.range options.channels.length)) := by
  refine ⟨completed_sorted hrun hC, fun hD options token conn ho ht hid htok hlen => ?_⟩
  have hrange := completed_range hrun hC hD
  rw [openTcp_ids ho ht (by simpa using hlen) (by simp [htok])]
  have hids : (s.completed.map conn).map Connection.id = s.completed := by
    simp [Function.comp_def, hid]
  rw [hids, ← hlen, ← hrange]

/-- Two connections, the second of which waits for the first. -/
def orderedRun : List GroupAct :=
  [.accept true, .accept true, .enter 0, .enter 1, .openReturns 0 true, .release 0, .enter 1,
    .openReturns 1 true, .release 1]

theorem group_in_order_two :
    ∃ s, groupLts.run groupLts.init orderedRun = some s ∧ s.completed = [0, 1] ∧
      s.completed.Pairwise (· < ·) :=
  ⟨_, rfl, rfl, (@group_in_order orderedRun _ rfl (by decide)).1⟩

/-- The desktop opens video, audio and control; audio and control both wait for
video, and the broadcast wakes control first. -/
def swappedRun : List GroupAct :=
  [.accept true, .accept true, .accept true, .enter 0, .enter 1, .enter 2, .openReturns 0 true,
    .release 0, .enter 2, .openReturns 2 true, .release 2, .enter 1, .openReturns 1 true]

open RigControl.Server in
theorem group_order_swapped :
    (groupLts.run groupLts.init swappedRun).map GroupState.completed = some [0, 2, 1] ∧
      (openTcp ⟨some demoToken, true, true⟩
        (.new ([0, 2, 1].map desktopConn))).2.registered.map (fun p => (p.1, p.2.id)) =
        [(.video, 0), (.audio, 2), (.control, 1)] := by
  decide

end RigControl.Agent
