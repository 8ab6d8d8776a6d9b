import Mathlib.Data.List.Basic

/-!
# Interleavings

`Interleave xs ys zs`: `zs` holds the elements of `xs` and of `ys`, each list in its
own order. A server that takes what arrives one by one and keeps some of it sees an
interleaving of what it keeps and what it drops.
-/

namespace RigControl.Lib

variable {α : Type}

inductive Interleave : List α → List α → List α → Prop where
  | nil : Interleave [] [] []
  | left {x : α} {xs ys zs : List α} : Interleave xs ys zs → Interleave (x :: xs) ys (x :: zs)
  | right {y : α} {xs ys zs : List α} : Interleave xs ys zs → Interleave xs (y :: ys) (y :: zs)

namespace Interleave

theorem nil_left {ys zs : List α} (h : Interleave [] ys zs) : zs = ys := by
  generalize hxs : ([] : List α) = xs at h
  induction h with
  | nil => rfl
  | left _ => cases hxs
  | right _ ih => rw [ih hxs]

theorem refl_left (xs : List α) : Interleave xs [] xs := by
  induction xs with
  | nil => exact .nil
  | cons _ _ ih => exact .left ih

/-- Up to the first element of `x :: xs`, an interleaving is elements of `ys` only. -/
theorem split_left {x : α} {xs ys zs : List α} (h : Interleave (x :: xs) ys zs) :
    ∃ pre ys' zs', ys = pre ++ ys' ∧ zs = pre ++ x :: zs' ∧ Interleave xs ys' zs' := by
  generalize hxs : x :: xs = l at h
  induction h with
  | nil => cases hxs
  | left h _ =>
    cases hxs
    exact ⟨[], _, _, rfl, rfl, h⟩
  | right _ ih =>
    obtain ⟨pre, ys', zs', rfl, rfl, h⟩ := ih hxs
    exact ⟨_ :: pre, ys', zs', rfl, rfl, h⟩

theorem append_right {ys : List α} (pre : List α) {xs zs : List α} (h : Interleave xs ys zs) :
    Interleave xs (pre ++ ys) (pre ++ zs) := by
  induction pre with
  | nil => exact h
  | cons _ _ ih => exact .right ih

end Interleave

end RigControl.Lib
