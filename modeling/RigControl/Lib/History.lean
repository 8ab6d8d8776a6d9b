import Mathlib.Data.List.Induction

/-!
# Logs whose entries answer to what came before

`Each P l`: every entry of the log `l` stands in the relation `P` to the entries
before it. A component that appends to its log keeps `Each P` if what it appends
does (`Each.snoc`); what it says about a log it says about each prefix of it.
`pending` reads a log in which some entries open something and some close it: whether
it is open at the end (`pending_iff`).

A component that is told of many keys which go down and up, and logs what it makes of
it, keeps those that are down in step with both (`InStep`). The log is `Balanced` when none is
down, and none is exactly if it was told of each that it had come up (`InStep.none_iff`).
-/

namespace RigControl.Lib

variable {α : Type}

def Each (P : List α → α → Prop) (l : List α) : Prop :=
  ∀ before a after, l = before ++ a :: after → P before a

namespace Each

variable {P : List α → α → Prop} {l : List α}

theorem nil : Each P ([] : List α) := by
  intro before a after h
  simp at h

theorem snoc (h : Each P l) {a : α} (ha : P l a) : Each P (l ++ [a]) := by
  intro before b after hl
  rcases List.eq_nil_or_concat after with rfl | ⟨after, c, rfl⟩
  · obtain ⟨rfl, hb⟩ := List.append_inj' hl rfl
    cases hb
    exact ha
  · rw [List.concat_eq_append, ← List.cons_append, ← List.append_assoc] at hl
    obtain ⟨hl, -⟩ := List.append_inj' hl rfl
    exact h before b after hl

theorem of_snoc {a : α} (h : Each P (l ++ [a])) : Each P l ∧ P l a := by
  refine ⟨fun before b after hl => ?_, h l a [] rfl⟩
  exact h before b (after ++ [a]) (by rw [hl, List.append_assoc, List.cons_append])

end Each

section

variable (opens closes : α → Bool)

def pending (l : List α) : Bool := l.foldl (fun open' a => opens a || (open' && !closes a)) false

variable {opens closes}

theorem pending_snoc (l : List α) (a : α) :
    pending opens closes (l ++ [a]) = (opens a || (pending opens closes l && !closes a)) := by
  simp [pending]

/-- Open at the end: opened, and not closed since. -/
theorem pending_iff {l : List α} : pending opens closes l = true ↔
    ∃ before a after, l = before ++ a :: after ∧ opens a = true ∧ ∀ b ∈ after, closes b = false := by
  induction l using List.reverseRecOn with
  | nil => simp [pending]
  | append_singleton l c ih =>
    rw [pending_snoc, Bool.or_eq_true, Bool.and_eq_true, ih]
    constructor
    · rintro (hc | ⟨⟨before, a, after, rfl, ha, hafter⟩, hc⟩)
      · exact ⟨l, c, [], rfl, hc, by simp⟩
      · refine ⟨before, a, after ++ [c], by simp, ha, fun b hb => ?_⟩
        rcases List.mem_append.mp hb with hb | hb
        · exact hafter b hb
        · obtain rfl := List.mem_singleton.mp hb
          simpa using hc
    · rintro ⟨before, a, after, hl, ha, hafter⟩
      rcases List.eq_nil_or_concat after with rfl | ⟨after, d, rfl⟩
      · obtain ⟨-, hd⟩ := List.append_inj' hl rfl
        cases hd
        exact .inl ha
      · rw [List.concat_eq_append, ← List.cons_append, ← List.append_assoc] at hl
        obtain ⟨hinit, hlast⟩ := List.append_inj' hl rfl
        obtain rfl : c = d := by simpa using hlast
        refine .inr ⟨⟨before, a, after, hinit, ha, fun b hb => hafter b ?_⟩, ?_⟩
        · simp [hb]
        · simpa using hafter c (by simp)

/-- Nothing is open at the end: whatever was opened was closed later. -/
theorem not_pending_iff {l : List α} : pending opens closes l = false ↔
    ∀ before a after, l = before ++ a :: after → opens a = true →
      ∃ b ∈ after, closes b = true := by
  rw [← Bool.not_eq_true, pending_iff]
  constructor
  · intro hnot before a after hl ha
    by_contra hnone
    refine hnot ⟨before, a, after, hl, ha, fun b hb => ?_⟩
    by_contra hb'
    exact hnone ⟨b, hb, by simpa using hb'⟩
  · rintro hall ⟨before, a, after, hl, ha, hafter⟩
    obtain ⟨b, hb, hclose⟩ := hall before a after hl ha
    rw [hafter b hb] at hclose
    cases hclose

end

/-! ## Keys that go down and up -/

variable {κ ι : Type}

/-- What goes down comes up, and nothing comes up that is not down. -/
structure Balanced (opens closes : κ → α → Bool) (log : List α) : Prop where
  closed : ∀ before a after k, log = before ++ a :: after → opens k a = true →
    ∃ b ∈ after, closes k b = true
  opened : Each (fun before a => ∀ k, closes k a = true →
    ∃ older b since, before = older ++ b :: since ∧ opens k b = true ∧
      ∀ c ∈ since, closes k c = false) log

/-- The keys that are down went down and not up since, in what the component was told and
in what it has logged. -/
structure InStep (presses releases : κ → ι → Bool) (opens closes : κ → α → Bool)
    (down : κ → Prop) (events : List ι) (log : List α) : Prop where
  told : ∀ k, down k ↔ pending (presses k) (releases k) events = true
  logged : ∀ k, down k ↔ pending (opens k) (closes k) log = true
  opened : Each (fun before a => ∀ k, closes k a = true →
    pending (opens k) (closes k) before = true) log

namespace InStep

variable {presses releases : κ → ι → Bool} {opens closes : κ → α → Bool} {down down' : κ → Prop}
  {events : List ι} {log : List α}

theorem nil (hnone : ∀ k, ¬down k) : InStep presses releases opens closes down [] [] where
  told k := iff_of_false (hnone k) Bool.false_ne_true
  logged k := iff_of_false (hnone k) Bool.false_ne_true
  opened := .nil

/-- An event that takes nothing down, and nothing up that is down. -/
theorem quiet (h : InStep presses releases opens closes down events log) {e : ι}
    (hpress : ∀ k, presses k e = false) (hrelease : ∀ k, releases k e = true → ¬down k) :
    InStep presses releases opens closes down (events ++ [e]) log where
  told k := by
    rw [pending_snoc, hpress, Bool.false_or, Bool.and_eq_true, ← h.told k]
    refine ⟨fun hk => ⟨hk, ?_⟩, And.left⟩
    cases hr : releases k e with
    | false => rfl
    | true => exact absurd hk (hrelease k hr)
  logged := h.logged
  opened := h.opened

/-- An entry of the log that is about no key. -/
theorem other (h : InStep presses releases opens closes down events log) {a : α}
    (hopen : ∀ k, opens k a = false) (hclose : ∀ k, closes k a = false) :
    InStep presses releases opens closes down events (log ++ [a]) where
  told := h.told
  logged k := by
    rw [pending_snoc, hopen, hclose, Bool.not_false, Bool.and_true, Bool.false_or]
    exact h.logged k
  opened := h.opened.snoc fun k hk => by
    rw [hclose] at hk
    cases hk

section

variable [DecidableEq κ] {e : ι} {a : α} {k : κ}

theorem press (h : InStep presses releases opens closes down events log)
    (hpress : ∀ j, presses j e = decide (k = j)) (hrelease : ∀ j, releases j e = false)
    (hopen : ∀ j, opens j a = decide (k = j)) (hclose : ∀ j, closes j a = false)
    (hdown : ∀ j, down' j ↔ k = j ∨ down j) :
    InStep presses releases opens closes down' (events ++ [e]) (log ++ [a]) where
  told j := by
    rw [pending_snoc, hpress, hrelease, Bool.not_false, Bool.and_true, Bool.or_eq_true,
      decide_eq_true_eq, ← h.told j, hdown]
  logged j := by
    rw [pending_snoc, hopen, hclose, Bool.not_false, Bool.and_true, Bool.or_eq_true,
      decide_eq_true_eq, ← h.logged j, hdown]
  opened := h.opened.snoc fun j hj => by
    rw [hclose] at hj
    cases hj

theorem release (h : InStep presses releases opens closes down events log) (hk : down k)
    (hpress : ∀ j, presses j e = false) (hrelease : ∀ j, releases j e = decide (k = j))
    (hopen : ∀ j, opens j a = false) (hclose : ∀ j, closes j a = decide (k = j))
    (hdown : ∀ j, down' j ↔ down j ∧ k ≠ j) :
    InStep presses releases opens closes down' (events ++ [e]) (log ++ [a]) where
  told j := by
    rw [pending_snoc, hpress, hrelease, Bool.false_or, Bool.and_eq_true, Bool.not_eq_true',
      decide_eq_false_iff_not, ← h.told j, hdown]
  logged j := by
    rw [pending_snoc, hopen, hclose, Bool.false_or, Bool.and_eq_true, Bool.not_eq_true',
      decide_eq_false_iff_not, ← h.logged j, hdown]
  opened := h.opened.snoc fun j hj => by
    rw [hclose, decide_eq_true_eq] at hj
    exact hj ▸ (h.logged k).mp hk

end

theorem balanced (h : InStep presses releases opens closes down events log)
    (hnone : ∀ k, ¬down k) : Balanced opens closes log where
  closed before a after k hlog hopen := by
    have hpending : pending (opens k) (closes k) log = false :=
      Bool.eq_false_iff.mpr fun hp => hnone k ((h.logged k).mpr hp)
    exact not_pending_iff.mp hpending before a after hlog hopen
  opened before a after hlog k hclose := pending_iff.mp (h.opened before a after hlog k hclose)

theorem none_iff (h : InStep presses releases opens closes down events log) :
    (∀ k, ¬down k) ↔ ∀ k before e after, events = before ++ e :: after → presses k e = true →
      ∃ e' ∈ after, releases k e' = true := by
  refine forall_congr' fun k => ?_
  rw [h.told k, Bool.not_eq_true]
  exact not_pending_iff

end InStep

end RigControl.Lib
