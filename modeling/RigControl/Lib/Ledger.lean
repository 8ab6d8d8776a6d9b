import Mathlib.Data.List.Perm.Basic
import Mathlib.Data.List.Nodup
import Mathlib.Data.List.Range

/-!
# What was acquired and given back

A `Ledger` counts what was acquired (each has its place in `made` as its number) and
keeps what was given back, in order. `Holds l ids` says that what was given back and
`ids` together are everything, each once: it is kept by acquiring and by releasing
(`Holds.acquire`, `Holds.release`), and a ledger that holds nothing is settled, so that
nothing leaks and nothing is given back twice.
-/

namespace RigControl.Lib

structure Ledger (α : Type) where
  made : List α
  released : List Nat
  deriving DecidableEq, Repr

namespace Ledger

variable {α : Type}

def empty : Ledger α := ⟨[], []⟩

/-- The number of what is acquired next. -/
def next (l : Ledger α) : Nat := l.made.length

def acquire (l : Ledger α) (a : α) : Ledger α := { l with made := l.made ++ [a] }

def release (l : Ledger α) (id : Nat) : Ledger α := { l with released := l.released ++ [id] }

/-- Acquired, and not given back. -/
def Live (l : Ledger α) (id : Nat) : Prop := id < l.next ∧ id ∉ l.released

/-- Everything acquired was given back exactly once, and nothing else was. -/
structure Settled (l : Ledger α) : Prop where
  once : ∀ id < l.next, l.released.count id = 1
  known : ∀ id ∈ l.released, id < l.next

/-- What has not been given back is `ids`. -/
def Holds (l : Ledger α) (ids : List Nat) : Prop :=
  (l.released ++ ids).Perm (List.range l.next)

variable {l : Ledger α} {ids ids' : List Nat}

theorem holds_empty : (empty : Ledger α).Holds [] := List.Perm.refl _

theorem Holds.perm (h : l.Holds ids) (hp : ids.Perm ids') : l.Holds ids' :=
  ((List.perm_append_left_iff l.released).mpr hp.symm).trans h

theorem Holds.acquire (h : l.Holds ids) (a : α) : (l.acquire a).Holds (l.next :: ids) := by
  have hrange : List.range (l.acquire a).next = List.range l.next ++ [l.next] := by
    rw [next, Ledger.acquire, List.length_append, List.length_singleton, List.range_succ]
    rfl
  rw [Holds, hrange]
  exact List.perm_middle.trans ((h.cons l.next).trans (List.perm_append_singleton _ _).symm)

theorem Holds.release {id : Nat} (h : l.Holds (id :: ids)) : (l.release id).Holds ids := by
  rw [Holds, Ledger.release, List.append_assoc]
  exact h

theorem Holds.live_iff (h : l.Holds ids) (id : Nat) : l.Live id ↔ id ∈ ids := by
  have hmem : id ∈ l.released ++ ids ↔ id < l.next := h.mem_iff.trans List.mem_range
  have hdisj := List.nodup_append.mp (h.nodup_iff.mpr List.nodup_range)
  rw [List.mem_append] at hmem
  constructor
  · rintro ⟨hlt, hnot⟩
    exact (hmem.mpr hlt).resolve_left hnot
  · intro hid
    exact ⟨hmem.mp (.inr hid), fun hrel => hdisj.2.2 id hrel id hid rfl⟩

/-- What was acquired and is not held was given back once. -/
theorem Holds.count (h : l.Holds ids) {id : Nat} (hid : id < l.next) :
    l.released.count id = if id ∈ ids then 0 else 1 := by
  have hone : (l.released ++ ids).count id = 1 :=
    List.count_eq_one_of_mem (h.nodup_iff.mpr List.nodup_range)
      (h.mem_iff.mpr (List.mem_range.mpr hid))
  rw [List.count_append] at hone
  split
  · rename_i hmem
    have hpos := List.count_pos_iff.mpr hmem
    omega
  · rename_i hmem
    rwa [List.count_eq_zero_of_not_mem hmem, Nat.add_zero] at hone

/-- A ledger that holds nothing is settled. -/
theorem Holds.settled (h : l.Holds []) : l.Settled := by
  rw [Holds, List.append_nil] at h
  refine ⟨fun id hid => ?_, fun id hid => List.mem_range.mp (h.subset hid)⟩
  exact List.count_eq_one_of_mem (h.nodup_iff.mpr List.nodup_range) (h.mem_iff.mpr (List.mem_range.mpr hid))

theorem acquire_next (l : Ledger α) (a : α) : (l.acquire a).made[l.next]? = some a := by
  simp [acquire, next]

theorem acquire_lt (l : Ledger α) (a b : α) {id : Nat} (h : l.made[id]? = some b) :
    (l.acquire a).made[id]? = some b := by
  rw [acquire, List.getElem?_append_left (List.getElem?_eq_some_iff.mp h).1]
  exact h

end Ledger

end RigControl.Lib
