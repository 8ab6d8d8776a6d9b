import Mathlib.Data.List.Basic

/-!
# Lists with one entry changed

A table of records of which one changes: what `List.modify` and `List.set` leave as it
was. A view that does not see the change is the same (`map_set_same`), and so is every
other entry (`mem_set_of_ne`).
-/

namespace RigControl.Lib

variable {α β : Type} {l : List α} {i j : Nat}

theorem modify_eq_some {f : α → α} {a : α} (h : (l.modify i f)[j]? = some a) :
    ∃ b, l[j]? = some b ∧ a = if i = j then f b else b := by
  rw [List.getElem?_modify] at h
  obtain ⟨b, hb, rfl⟩ := Option.map_eq_some_iff.mp h
  exact ⟨b, hb, rfl⟩

theorem mem_modify_cases {f : α → α} {a : α} (h : a ∈ l.modify i f) :
    a ∈ l ∨ ∃ b ∈ l, a = f b := by
  obtain ⟨j, hj⟩ := List.mem_iff_getElem?.mp h
  obtain ⟨b, hb, rfl⟩ := modify_eq_some hj
  split
  · exact .inr ⟨b, List.mem_of_getElem? hb, rfl⟩
  · exact .inl (List.mem_of_getElem? hb)

variable {t t' : α}

theorem mem_set_self (ht : l[j]? = some t) : t' ∈ l.set j t' :=
  List.mem_set (List.getElem?_eq_some_iff.mp ht).1 t'

theorem mem_set_of_ne {u : α} (ht : l[j]? = some t) (hu : u ∈ l) (hne : u ≠ t) :
    u ∈ l.set j t' := by
  obtain ⟨k, hk⟩ := List.mem_iff_getElem?.mp hu
  have hkj : j ≠ k := by
    rintro rfl
    exact hne (Option.some.inj (hk.symm.trans ht))
  exact List.mem_of_getElem? ((List.getElem?_set_ne hkj).trans hk)

theorem map_set_same {f : α → β} (ht : l[j]? = some t) (hf : f t' = f t) :
    (l.set j t').map f = l.map f := by
  refine List.ext_getElem? fun k => ?_
  rw [List.map_set, List.getElem?_set]
  split
  case isTrue hk =>
    subst hk
    rw [List.getElem?_map, ht, hf, List.length_map, if_pos (List.getElem?_eq_some_iff.mp ht).1]
    rfl
  case isFalse => rfl

theorem countP_set_same {p : α → Bool} (ht : l[j]? = some t) (hp : p t' = p t) :
    (l.set j t').countP p = l.countP p := by
  have hcount : ∀ l : List α, l.countP p = (l.map p).countP id := fun l => by
    rw [List.countP_map]
    rfl
  rw [hcount, hcount, map_set_same ht hp]

/-- One entry that counts no more. -/
theorem countP_set_false {p : α → Bool} (ht : l[j]? = some t) (hp : p t = true)
    (hp' : p t' = false) : (l.set j t').countP p + 1 = l.countP p := by
  obtain ⟨hlt, hget⟩ := List.getElem?_eq_some_iff.mp ht
  have hpos : 0 < l.countP p := List.countP_pos_iff.mpr ⟨t, List.mem_of_getElem? ht, hp⟩
  rw [List.countP_set hlt, hget, if_pos hp, hp']
  simp only [Bool.false_eq_true, if_false]
  omega

end RigControl.Lib
