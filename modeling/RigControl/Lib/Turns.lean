import RigControl.Lib.Lts
import Mathlib.Data.List.Range

/-!
# Taking turns

Clients arrive one after the other and each uses a resource once: it takes the
resource when nobody has it, finishes with it, well or not, and leaves it. Which of
the waiting clients takes it next is left open. What the resource guarantees is
that one client at a time has it (`Turns.exclusive_run`); the order in which clients
finish is the order of their arrival if every turn goes to the earliest client that
waits (`InTurn.sorted`), and no client is missing from it if none is lost
(`InTurn.complete`).
-/

namespace RigControl.Lib

/-- A client: it never came for its turn, waits, has the resource, has finished with
it, has left it. -/
inductive Turn where
  | never | pending | inside
  | finished (ok : Bool)
  | left (ok : Bool)
  deriving DecidableEq, Repr

/-- The client has the resource. -/
def Turn.holds : Turn → Bool
  | .inside | .finished _ => true
  | _ => false

/-- The client has had its turn. -/
def Turn.taken : Turn → Bool
  | .inside | .finished _ | .left _ => true
  | _ => false

/-- The clients in the order of their arrival, and those that finished well, in the
order in which they did. -/
structure Turns where
  busy : Bool
  clients : List Turn
  done : List Nat
  deriving DecidableEq, Repr

inductive Move where
  | arrive (comes : Bool)
  | take (i : Nat)
  | finish (i : Nat) (ok : Bool)
  | leave (i : Nat)
  deriving DecidableEq, Repr

namespace Turns

def turn (t : Turns) (i : Nat) : Option Turn := t.clients[i]?

def put (t : Turns) (i : Nat) (x : Turn) : Turns := { t with clients := t.clients.set i x }

def step (t : Turns) : Move → Option Turns
  | .arrive comes => some { t with clients := t.clients ++ [if comes then .pending else .never] }
  | .take i =>
    if t.turn i = some .pending ∧ t.busy = false then
      some { t.put i .inside with busy := true }
    else none
  | .finish i ok =>
    if t.turn i = some .inside then
      some { t.put i (.finished ok) with done := if ok then t.done ++ [i] else t.done }
    else none
  | .leave i =>
    match t.turn i with
    | some (.finished ok) => some { t.put i (.left ok) with busy := false }
    | _ => none

end Turns

def turnsLts : Lts Turns Move := { init := ⟨false, [], []⟩, step := Turns.step }

/-- A turn goes to the earliest client that waits. -/
def InTurn (t : Turns) : Move → Prop
  | .take i => ∀ j < i, t.turn j ≠ some .pending
  | _ => True

/-- No client is lost: each comes for its turn, and finishes well. -/
def NoLoss : Turns → Move → Prop
  | _, .arrive comes => comes = true
  | _, .finish _ ok => ok = true
  | _, _ => True

namespace Turns

variable {t u : Turns} {i j : Nat} {x y : Turn}

theorem turn_put (hi : t.turn i = some x) :
    (t.put i y).turn j = if i = j then some y else t.turn j := by
  have hlt : i < t.clients.length := (List.getElem?_eq_some_iff.mp hi).1
  simp only [turn, put, List.getElem?_set, hlt, ↓reduceIte]

theorem turn_arrive (y : Turn) :
    ({ t with clients := t.clients ++ [y] } : Turns).turn j =
      if j = t.clients.length then some y else t.turn j := by
  simp only [turn, List.getElem?_append, List.getElem?_singleton]
  split
  · rw [if_neg (by omega)]
  · split
    · rw [if_pos (by omega)]
    · rw [if_neg (by omega), List.getElem?_eq_none (by omega)]

theorem turn_lt (h : t.turn i = some x) : i < t.clients.length :=
  (List.getElem?_eq_some_iff.mp h).1

/-- What holds while every turn goes to the earliest client: one client at a time
has the resource, it came after all that had their turn before, and no client waits
that came before one that had its turn. -/
structure Ordered (t : Turns) : Prop where
  free : t.busy = false → ∀ i x, t.turn i = some x → x.holds = false
  excl : ∀ i x j y, t.turn i = some x → x.holds = true → t.turn j = some y → y.holds = true → i = j
  early : ∀ i x j, t.turn i = some x → x.taken = true → j < i → t.turn j ≠ some .pending
  last : ∀ i x j y, t.turn i = some x → x.holds = true → t.turn j = some y → y.taken = true → j ≤ i
  done : ∀ i ∈ t.done, t.turn i = some (.finished true) ∨ t.turn i = some (.left true)
  sorted : t.done.Pairwise (· < ·)

theorem ordered_init : Ordered ⟨false, [], []⟩ where
  free := by simp [turn]
  excl := by simp [turn]
  early := by simp [turn]
  last := by simp [turn]
  done := by simp
  sorted := .nil

theorem ordered_arrive (h : Ordered t) (comes : Bool) :
    Ordered { t with clients := t.clients ++ [if comes then .pending else .never] } where
  free := by
    intro hb i x hx
    rw [turn_arrive] at hx
    split at hx
    · cases comes <;> cases hx <;> rfl
    · exact h.free hb i x hx
  excl := by
    intro i x j y hx hxh hy hyh
    rw [turn_arrive] at hx hy
    split at hx
    · cases comes <;> cases hx <;> cases hxh
    · split at hy
      · cases comes <;> cases hy <;> cases hyh
      · exact h.excl i x j y hx hxh hy hyh
  early := by
    intro i x j hx hxt hji
    rw [turn_arrive] at hx ⊢
    split at hx
    · cases comes <;> cases hx <;> cases hxt
    · rw [if_neg (by have := turn_lt hx; omega)]
      exact h.early i x j hx hxt hji
  last := by
    intro i x j y hx hxh hy hyt
    rw [turn_arrive] at hx hy
    split at hx
    · cases comes <;> cases hx <;> cases hxh
    · split at hy
      · cases comes <;> cases hy <;> cases hyt
      · exact h.last i x j y hx hxh hy hyt
  done := by
    intro i hi
    have hd := h.done i hi
    have hlt : i < t.clients.length := by rcases hd with hd | hd <;> exact turn_lt hd
    rw [turn_arrive, if_neg (by omega)]
    exact hd
  sorted := h.sorted

/-- The earliest client takes the free resource: all that had their turn came
before it, and have left. -/
theorem ordered_take (h : Ordered t) (hi : t.turn i = some .pending) (hb : t.busy = false)
    (hturn : ∀ j < i, t.turn j ≠ some .pending) :
    Ordered { t.put i .inside with busy := true } := by
  have hu (j : Nat) : ({ t.put i .inside with busy := true } : Turns).turn j =
      if i = j then some .inside else t.turn j := turn_put hi
  have hfree := h.free hb
  have hlast (j : Nat) (y : Turn) (hy : t.turn j = some y) (hyt : y.taken = true) : j < i := by
    rcases Nat.lt_trichotomy j i with hji | rfl | hij
    · exact hji
    · rw [hi] at hy
      cases hy
      cases hyt
    · exact absurd hi (h.early j y i hy hyt hij)
  exact {
    free := by simp
    excl := by grind
    early := by grind [h.early]
    last := by grind
    done := by grind [h.done, put]
    sorted := h.sorted }

/-- The client that finishes is the last that had its turn. -/
theorem ordered_finish (h : Ordered t) (hi : t.turn i = some .inside) (ok : Bool) :
    Ordered { t.put i (.finished ok) with done := if ok then t.done ++ [i] else t.done } := by
  have hu (j : Nat) : ({ t.put i (.finished ok) with
      done := if ok then t.done ++ [i] else t.done } : Turns).turn j =
      if i = j then some (.finished ok) else t.turn j := turn_put hi
  have hlast : ∀ j y, t.turn j = some y → y.taken = true → j ≤ i :=
    fun j y hy hyt => h.last i _ j y hi rfl hy hyt
  have hexcl : ∀ j y, t.turn j = some y → y.holds = true → i = j :=
    fun j y hy hyh => h.excl i _ j y hi rfl hy hyh
  have hlt : ∀ j ∈ t.done, j < i := by
    intro j hj
    rcases h.done j hj with hy | hy
    · have hle := hlast j _ hy rfl
      grind
    · have hle := hlast j _ hy rfl
      grind
  exact {
    free := by grind [h.free, put, Turn.holds]
    excl := by grind
    early := by grind [h.early, Turn.taken]
    last := by grind
    done := by grind [h.done]
    sorted := by
      cases ok with
      | false => exact h.sorted
      | true =>
        exact List.pairwise_append.mpr
          ⟨h.sorted, List.pairwise_singleton _ _, by simpa using hlt⟩ }

/-- The client that leaves was the only one to have the resource. -/
theorem ordered_leave (h : Ordered t) {ok : Bool} (hi : t.turn i = some (.finished ok)) :
    Ordered { t.put i (.left ok) with busy := false } := by
  have hu (j : Nat) : ({ t.put i (.left ok) with busy := false } : Turns).turn j =
      if i = j then some (.left ok) else t.turn j := turn_put hi
  have hexcl : ∀ j y, t.turn j = some y → y.holds = true → i = j :=
    fun j y hy hyh => h.excl i _ j y hi rfl hy hyh
  exact {
    free := by grind [Turn.holds]
    excl := by grind [h.excl, Turn.holds]
    early := by grind [h.early, Turn.taken]
    last := by grind [h.last, Turn.holds, Turn.taken]
    done := by grind [h.done, put]
    sorted := h.sorted }

theorem ordered_step (h : Ordered t) {m : Move} (hm : InTurn t m) (hs : t.step m = some u) :
    Ordered u := by
  cases m with
  | arrive comes =>
    cases hs
    exact ordered_arrive h comes
  | take i =>
    simp only [step] at hs
    split at hs
    · rename_i hi
      cases hs
      exact ordered_take h hi.1 hi.2 hm
    · cases hs
  | finish i ok =>
    simp only [step] at hs
    split at hs
    · rename_i hi
      cases hs
      exact ordered_finish h hi ok
    · cases hs
  | leave i =>
    simp only [step] at hs
    split at hs
    · rename_i ok hi
      cases hs
      exact ordered_leave h hi
    · cases hs

/-- What holds besides when no client is lost: the first clients, up to some number,
have finished well and in order, the next may have the resource, the others wait. -/
structure Complete (t : Turns) : Prop where
  done : t.done = List.range t.done.length
  bound : t.done.length ≤ t.clients.length
  turns : ∀ i x, t.turn i = some x →
    if i < t.done.length then x = .finished true ∨ x = .left true
    else x = .pending ∨ x = .inside ∧ i = t.done.length

theorem complete_init : Complete ⟨false, [], []⟩ where
  done := rfl
  bound := Nat.le_refl _
  turns := by simp [turn]

theorem complete_take (h : Complete t) (ho : Ordered t) (hi : t.turn i = some .pending)
    (hb : t.busy = false) (hturn : ∀ j < i, t.turn j ≠ some .pending) :
    Complete { t.put i .inside with busy := true } := by
  have hu (j : Nat) : ({ t.put i .inside with busy := true } : Turns).turn j =
      if i = j then some .inside else t.turn j := turn_put hi
  have hnext : i = t.done.length := by
    have hge : t.done.length ≤ i := by
      have := h.turns i _ hi
      grind
    rcases Nat.lt_or_ge t.done.length i with hlt | hle
    · -- the client after those that are done waits too, and came earlier
      have hlen : t.done.length < t.clients.length := Nat.lt_trans hlt (turn_lt hi)
      obtain ⟨y, hy⟩ : ∃ y, t.turn t.done.length = some y := ⟨_, List.getElem?_eq_getElem hlen⟩
      have hy2 := h.turns _ y hy
      have hfree := ho.free hb _ y hy
      have hne := hturn _ hlt
      grind [Turn.holds]
    · omega
  exact {
    done := h.done
    bound := by simpa [put] using h.bound
    turns := by grind [h.turns, put] }

theorem complete_finish (h : Complete t) (hi : t.turn i = some .inside) :
    Complete { t.put i (.finished true) with done := t.done ++ [i] } := by
  have hu (j : Nat) : ({ t.put i (.finished true) with done := t.done ++ [i] } : Turns).turn j =
      if i = j then some (.finished true) else t.turn j := turn_put hi
  have hlen := turn_lt hi
  obtain rfl : i = t.done.length := by
    have := h.turns i _ hi
    grind
  exact {
    bound := by simpa [put] using Nat.succ_le_of_lt hlen
    done := by
      rw [List.length_append, List.length_singleton, List.range_succ, ← h.done]
    turns := by
      intro j y hy
      rw [hu] at hy
      have := h.turns j y
      simp only [List.length_append, List.length_singleton]
      grind }

theorem complete_leave (h : Complete t) {ok : Bool} (hi : t.turn i = some (.finished ok)) :
    Complete { t.put i (.left ok) with busy := false } := by
  have hu (j : Nat) : ({ t.put i (.left ok) with busy := false } : Turns).turn j =
      if i = j then some (.left ok) else t.turn j := turn_put hi
  exact {
    done := h.done
    bound := by simpa [put] using h.bound
    turns := by grind [h.turns, put] }

theorem complete_arrive (h : Complete t) :
    Complete { t with clients := t.clients ++ [.pending] } := by
  refine { done := h.done, bound := ?_, turns := ?_ }
  · have := h.bound
    simp only [List.length_append, List.length_singleton]
    omega
  · intro i x hx
    rw [turn_arrive] at hx
    split at hx
    · rename_i hi
      cases hx
      have hge : ¬ i < t.done.length := by have := h.bound; omega
      rw [if_neg hge]
      exact .inl rfl
    · exact h.turns i x hx

theorem complete_step (h : Complete t) (ho : Ordered t) {m : Move} (hm : InTurn t m)
    (hn : NoLoss t m) (hs : t.step m = some u) : Complete u := by
  cases m with
  | arrive comes =>
    obtain rfl : comes = true := hn
    cases hs
    exact complete_arrive h
  | take i =>
    simp only [step] at hs
    split at hs
    · rename_i hi
      cases hs
      exact complete_take h ho hi.1 hi.2 hm
    · cases hs
  | finish i ok =>
    obtain rfl : ok = true := hn
    simp only [step] at hs
    split at hs
    · rename_i hi
      cases hs
      exact complete_finish h hi
    · cases hs
  | leave i =>
    simp only [step] at hs
    split at hs
    · rename_i ok hi
      cases hs
      exact complete_leave h hi
    · cases hs

/-- The client has the resource. -/
def Holds (t : Turns) (i : Nat) : Prop := ∃ x, t.turn i = some x ∧ x.holds = true

theorem holds_put (hi : t.turn i = some x) :
    (t.put i y).Holds j ↔ if i = j then y.holds = true else t.Holds j := by
  simp only [Holds, turn_put hi]
  split <;> simp

theorem holds_arrive (comes : Bool) :
    ({ t with clients := t.clients ++ [if comes then .pending else .never] } : Turns).Holds j ↔
      t.Holds j := by
  simp only [Holds, turn_arrive]
  split
  · rename_i hj
    have hnone : t.turn j = none := List.getElem?_eq_none (by omega)
    cases comes <;> simp [hnone, Turn.holds]
  · rfl

/-- Whatever the order of the turns: the resource is busy exactly while a client has
it, and one client at a time has it. -/
structure Exclusive (t : Turns) : Prop where
  busy : t.busy = true ↔ ∃ i, t.Holds i
  excl : ∀ i j, t.Holds i → t.Holds j → i = j

theorem exclusive_init : Exclusive ⟨false, [], []⟩ where
  busy := by simp [Holds, turn]
  excl := by simp [Holds, turn]

theorem exclusive_take (h : Exclusive t) (hi : t.turn i = some .pending) (hb : t.busy = false) :
    Exclusive { t.put i .inside with busy := true } := by
  have hnone (j : Nat) : ¬t.Holds j := fun hj => by simp [h.busy.mpr ⟨j, hj⟩] at hb
  have hu (j : Nat) : ({ t.put i .inside with busy := true } : Turns).Holds j ↔ i = j := by
    refine (holds_put hi).trans ?_
    split <;> simp_all [Turn.holds]
  exact {
    busy := by simp [hu]
    excl := by
      intro j k hj hk
      exact ((hu j).mp hj).symm.trans ((hu k).mp hk) }

/-- A client that has the resource and goes on having it. -/
theorem exclusive_finish (h : Exclusive t) (hi : t.turn i = some .inside) (ok : Bool)
    (done : List Nat) : Exclusive { t.put i (.finished ok) with done := done } := by
  have hu (j : Nat) : ({ t.put i (.finished ok) with done := done } : Turns).Holds j ↔
      t.Holds j := by
    refine (holds_put hi).trans ?_
    split
    · rename_i hij
      subst hij
      exact iff_of_true rfl ⟨_, hi, rfl⟩
    · rfl
  exact {
    busy := h.busy.trans (exists_congr fun j => (hu j).symm)
    excl := fun j k hj hk => h.excl j k ((hu j).mp hj) ((hu k).mp hk) }

theorem exclusive_leave (h : Exclusive t) {ok : Bool} (hi : t.turn i = some (.finished ok)) :
    Exclusive { t.put i (.left ok) with busy := false } := by
  have hu (j : Nat) : ¬({ t.put i (.left ok) with busy := false } : Turns).Holds j := by
    intro hj
    have hj' := (holds_put hi).mp hj
    split at hj'
    · cases hj'
    · rename_i hij
      exact hij (h.excl i j ⟨_, hi, rfl⟩ hj')
  exact {
    busy := by simp [hu]
    excl := fun j _ hj => absurd hj (hu j) }

theorem exclusive_step (h : Exclusive t) {m : Move} (hs : t.step m = some u) : Exclusive u := by
  cases m with
  | arrive comes =>
    cases hs
    exact { busy := by simpa only [holds_arrive] using h.busy
            excl := by simpa only [holds_arrive] using h.excl }
  | take i =>
    simp only [step] at hs
    split at hs
    · rename_i hi
      cases hs
      exact exclusive_take h hi.1 hi.2
    · cases hs
  | finish i ok =>
    simp only [step] at hs
    split at hs
    · rename_i hi
      cases hs
      exact exclusive_finish h hi ok _
    · cases hs
  | leave i =>
    simp only [step] at hs
    split at hs
    · rename_i ok hi
      cases hs
      exact exclusive_leave h hi
    · cases hs

theorem exclusive_run {ms : List Move} (h : turnsLts.run turnsLts.init ms = some t) :
    Exclusive t :=
  have hstep : ∀ s m s', Exclusive s → turnsLts.step s m = some s' → Exclusive s' :=
    fun _ _ _ hs h => exclusive_step hs h
  Lts.invariant hstep exclusive_init h

end Turns

/-- **First come, first done.** If every turn goes to the earliest client that waits,
the clients that finish well do so in the order of their arrival. -/
theorem InTurn.sorted {t : Turns} {ms : List Move} (hC : turnsLts.Meets InTurn turnsLts.init ms)
    (h : turnsLts.run turnsLts.init ms = some t) : t.done.Pairwise (· < ·) :=
  have hstep : ∀ s m s', Turns.Ordered s → InTurn s m → turnsLts.step s m = some s' →
      Turns.Ordered s' := fun _ _ _ hs hm h => Turns.ordered_step hs hm h
  (Lts.invariant_on hstep Turns.ordered_init hC h).sorted

/-- If besides no client is lost, those that are done are the first ones, all of
them. -/
theorem InTurn.complete {t : Turns} {ms : List Move}
    (hC : turnsLts.Meets (fun t m => InTurn t m ∧ NoLoss t m) turnsLts.init ms)
    (h : turnsLts.run turnsLts.init ms = some t) : t.done = List.range t.done.length := by
  have hstep : ∀ (s : Turns) (m : Move) (s' : Turns), s.Ordered ∧ s.Complete →
      InTurn s m ∧ NoLoss s m → turnsLts.step s m = some s' → s'.Ordered ∧ s'.Complete := by
    intro s m s' ⟨ho, hc⟩ ⟨hm, hn⟩ hs
    exact ⟨Turns.ordered_step ho hm hs, Turns.complete_step hc ho hm hn hs⟩
  exact (Lts.invariant_on hstep ⟨Turns.ordered_init, Turns.complete_init⟩ hC h).2.done

end RigControl.Lib
