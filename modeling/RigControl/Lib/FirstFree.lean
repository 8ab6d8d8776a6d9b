import Mathlib.Data.List.Nodup
import Mathlib.Data.List.Perm.Subperm
import Mathlib.Data.List.Range

/-!
# The first number that is free

A search that goes up from a number until it finds one that is not used, with no bound
of its own. `firstFree` is the search with fuel. It ends when the used numbers are
among those of a list (`firstFree_of_cover`): the numbers before the one it finds are
all used and all different, so there are no more of them than the list has entries,
however often the list repeats one.
-/

namespace RigControl.Lib

/-- `for (x = start;; x++) if (!used(x)) return x;`, for so many turns. -/
def firstFree (used : Int → Bool) : Nat → Int → Option Int
  | 0, _ => none
  | n + 1, x => if used x then firstFree used n (x + 1) else some x

/-- The least number from `a` on that is not used. -/
structure IsFirstFree (used : Int → Bool) (a x : Int) : Prop where
  le : a ≤ x
  free : used x = false
  before : ∀ y, a ≤ y → y < x → used y = true

variable {used : Int → Bool} {a x y : Int} {n : Nat} {l : List Int}

theorem IsFirstFree.unique (hx : IsFirstFree used a x) (hy : IsFirstFree used a y) : x = y := by
  rcases Int.lt_trichotomy x y with hlt | heq | hgt
  · exact absurd (hy.before x hx.le hlt) (by simp [hx.free])
  · exact heq
  · exact absurd (hx.before y hy.le hgt) (by simp [hy.free])

theorem firstFree_sound (h : firstFree used n a = some x) : IsFirstFree used a x := by
  induction n generalizing a with
  | zero => cases h
  | succ n ih =>
    simp only [firstFree] at h
    split at h
    · rename_i hused
      have hrest := ih h
      refine ⟨by have := hrest.le; omega, hrest.free, fun y hle hlt => ?_⟩
      by_cases hya : y = a
      · exact hya ▸ hused
      · exact hrest.before y (by omega) hlt
    · rename_i hfree
      obtain rfl := Option.some.inj h
      exact ⟨Int.le_refl _, by simpa using hfree, fun y hle hlt => absurd hlt (by omega)⟩

/-- A search without a result has seen used numbers only. -/
theorem firstFree_none (h : firstFree used n a = none) : ∀ i < n, used (a + (i : Nat)) = true := by
  induction n generalizing a with
  | zero => intro i hi; omega
  | succ n ih =>
    simp only [firstFree] at h
    split at h
    · rename_i hused
      intro i hi
      cases i with
      | zero => simpa using hused
      | succ i =>
        have hrest := ih h i (by omega)
        rwa [show a + 1 + (i : Int) = a + ((i + 1 : Nat) : Int) by omega] at hrest
    · cases h

/-- A run of used numbers is no longer than a list that has all of them. -/
theorem used_run_le (hl : ∀ y, a ≤ y → used y = true → y ∈ l)
    (h : ∀ i < n, used (a + (i : Nat)) = true) : n ≤ l.length := by
  have hsub : ((List.range n).map fun i : Nat => a + (i : Int)) ⊆ l := by
    intro y hy
    obtain ⟨i, hi, rfl⟩ := List.mem_map.mp hy
    exact hl _ (by omega) (h i (List.mem_range.mp hi))
  have hnodup : ((List.range n).map fun i : Nat => a + (i : Int)).Nodup := by
    refine List.Nodup.map (fun i j hij => ?_) List.nodup_range
    have hij' : a + (i : Int) = a + j := hij
    omega
  simpa using (hnodup.subperm hsub).length_le

/-- The first free number is at most as far up as a list that covers the used ones is
long. -/
theorem IsFirstFree.le_add_length (hx : IsFirstFree used a x)
    (hl : ∀ y, a ≤ y → used y = true → y ∈ l) : x ≤ a + l.length := by
  have hrun : ∀ i < (x - a).toNat, used (a + (i : Nat)) = true := fun i hi =>
    hx.before _ (by omega) (by omega)
  have hle := used_run_le hl hrun
  omega

/-- With one turn more than the list has entries the search ends, and more turns do
not change what it finds. -/
theorem firstFree_of_cover (hl : ∀ y, a ≤ y → used y = true → y ∈ l) :
    ∃ x, IsFirstFree used a x ∧ ∀ n, l.length < n → firstFree used n a = some x := by
  have hends : ∀ n, l.length < n → ∃ x, firstFree used n a = some x := by
    intro n hn
    cases h : firstFree used n a with
    | none => exact absurd (used_run_le hl (firstFree_none h)) (by omega)
    | some x => exact ⟨x, rfl⟩
  obtain ⟨x, hx⟩ := hends (l.length + 1) (by omega)
  have hfirst := firstFree_sound hx
  refine ⟨x, hfirst, fun n hn => ?_⟩
  obtain ⟨y, hy⟩ := hends n hn
  rw [hy, (firstFree_sound hy).unique hfirst]

end RigControl.Lib
