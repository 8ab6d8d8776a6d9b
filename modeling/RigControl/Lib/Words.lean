import Mathlib.Data.List.Infix

/-!
# Words of a line

What readers of lines do: take the word in front, split a line at its blanks, and look
for a key. `p` says which characters are blanks. A line is a word, then blanks, then a
word, so there is a lemma for a word in front (`wordsBy_word`) and one for blanks in
front (`wordsBy_gap`); the first key behind a blank is found (`after_eq`).
-/

namespace RigControl.Lib

variable {α β : Type} {p : α → Bool}

/-- Nothing, or a blank first. -/
def WordEnd (p : α → Bool) (rest : List α) : Prop := ∀ a ∈ rest.head?, p a = true

instance (rest : List α) : Decidable (WordEnd p rest) :=
  inferInstanceAs (Decidable (∀ a ∈ rest.head?, p a = true))

theorem wordEnd_nil : WordEnd p [] := nofun

theorem wordEnd_cons {a : α} {rest : List α} : WordEnd p (a :: rest) ↔ p a = true := by
  simp [WordEnd]

theorem wordEnd_gap {g rest : List α} (hg : ∀ a ∈ g, p a = true) (hne : g ≠ []) :
    WordEnd p (g ++ rest) := by
  obtain ⟨a, g, rfl⟩ := List.exists_cons_of_ne_nil hne
  exact wordEnd_cons.mpr (hg a List.mem_cons_self)

theorem wordEnd_map {q : β → Bool} {f : α → β} (hf : ∀ a, p a = true → q (f a) = true) {l : List α}
    (h : WordEnd p l) : WordEnd q (l.map f) := by
  cases l with
  | nil => exact wordEnd_nil
  | cons a l => exact wordEnd_cons.mpr (hf a (wordEnd_cons.mp h))

theorem takeWhile_word {w rest : List α} (hw : ∀ a ∈ w, p a = false) (hrest : WordEnd p rest) :
    (w ++ rest).takeWhile (fun a => !p a) = w := by
  rw [List.takeWhile_append_of_pos fun a ha => by rw [hw a ha]; rfl]
  cases rest with
  | nil => exact List.append_nil w
  | cons a rest =>
    rw [List.takeWhile_cons, wordEnd_cons.mp hrest]
    exact List.append_nil w

theorem dropWhile_gap {g rest : List α} (hg : ∀ a ∈ g, p a = true) :
    (g ++ rest).dropWhile p = rest.dropWhile p :=
  List.dropWhile_append_of_pos hg

theorem dropWhile_word {w rest : List α} (hw : ∀ a ∈ w, p a = false) (hne : w ≠ []) :
    (w ++ rest).dropWhile p = w ++ rest := by
  obtain ⟨a, w, rfl⟩ := List.exists_cons_of_ne_nil hne
  rw [List.cons_append, List.dropWhile_cons, hw a List.mem_cons_self]
  rfl

/-! ## All of them -/

/-- A line split at its blanks, without the empty pieces. -/
def wordsBy (p : α → Bool) (l : List α) : List (List α) := (l.splitOnP p).filter fun w => !w.isEmpty

theorem wordsBy_cons {a : α} {l : List α} (ha : p a = true) : wordsBy p (a :: l) = wordsBy p l := by
  rw [wordsBy, List.splitOnP_cons_eq_if_modifyHead, if_pos ha]
  rfl

theorem wordsBy_gap {g rest : List α} (hg : ∀ a ∈ g, p a = true) :
    wordsBy p (g ++ rest) = wordsBy p rest := by
  induction g with
  | nil => rfl
  | cons a g ih =>
    rw [List.cons_append, wordsBy_cons (hg a List.mem_cons_self)]
    exact ih fun b hb => hg b (List.mem_cons_of_mem a hb)

theorem wordsBy_word {w rest : List α} (hw : ∀ a ∈ w, p a = false) (hne : w ≠ [])
    (hrest : WordEnd p rest) : wordsBy p (w ++ rest) = w :: wordsBy p rest := by
  have hkeep : (!w.isEmpty) = true := by
    rw [Bool.not_eq_true', List.isEmpty_eq_false_iff]
    exact hne
  cases rest with
  | nil =>
    rw [List.append_nil, wordsBy, List.splitOnP_eq_singleton hw, List.filter_cons, if_pos hkeep]
    rfl
  | cons a rest =>
    have ha := wordEnd_cons.mp hrest
    rw [wordsBy_cons ha, wordsBy, List.splitOnP_append_cons w rest ha,
      List.splitOnP_eq_singleton hw, List.singleton_append, List.filter_cons, if_pos hkeep]
    rfl

/-- Lines that end alike. -/
theorem wordsBy_lines {sep : α} {lines : List (List α)} (hsep : p sep = true)
    (h : ∀ line ∈ lines, ∀ a ∈ line, p a = false) :
    wordsBy p (lines.flatMap fun line => line ++ [sep]) =
      lines.filter fun line => !line.isEmpty := by
  induction lines with
  | nil => rfl
  | cons line lines ih =>
    have hrest := ih fun l hl => h l (List.mem_cons_of_mem line hl)
    rw [List.flatMap_cons, List.append_assoc, List.singleton_append, List.filter_cons]
    by_cases hne : line = []
    · subst hne
      rw [List.nil_append, wordsBy_cons hsep]
      exact hrest
    · rw [wordsBy_word (h line List.mem_cons_self) hne (wordEnd_cons.mpr hsep),
        wordsBy_cons hsep, hrest, if_pos (by simpa using hne)]

/-! ## A key -/

/-- Behind the first `key`. -/
def after [BEq α] (key l : List α) : Option (List α) :=
  (l.tails.find? key.isPrefixOf).map (·.drop key.length)

variable {key : List α}

theorem after_subset [BEq α] {l rest : List α} (h : after key l = some rest) : rest ⊆ l := by
  obtain ⟨tail, htail, rfl⟩ := Option.map_eq_some_iff.mp h
  have hsuffix : tail <:+ l := (List.mem_tails _ _).mp (List.mem_of_find?_eq_some htail)
  exact fun a ha => hsuffix.subset (List.mem_of_mem_drop ha)

/-- A key without the separator does not go over it. -/
theorem prefix_before {sep : α} {a b : List α} (hsep : sep ∉ key) (h : key <+: a ++ sep :: b) :
    key <+: a := by
  refine List.prefix_of_prefix_length_le h (List.prefix_append a _) ?_
  by_contra hlong
  obtain ⟨t, ht⟩ := h
  have hget : (key ++ t)[a.length]? = (a ++ sep :: b)[a.length]? := by rw [ht]
  rw [List.getElem?_append_left (by omega), List.getElem?_append_right (Nat.le_refl _),
    Nat.sub_self] at hget
  exact hsep (List.mem_of_getElem? hget)

theorem infix_before {sep : α} {a : List α} (hsep : sep ∉ key) (hne : key ≠ [])
    (h : key <:+: a ++ [sep]) : key <:+: a := by
  obtain ⟨t, hkey, s, ht⟩ := List.infix_iff_prefix_suffix.mp h
  rcases List.eq_nil_or_concat t with rfl | ⟨u, b, rfl⟩
  · exact absurd (List.prefix_nil.mp hkey) hne
  · rw [List.concat_eq_append] at ht hkey
    rw [← List.append_assoc] at ht
    obtain ⟨rfl, hb⟩ := List.append_inj' ht rfl
    cases hb
    exact (prefix_before hsep hkey).isInfix.trans (List.suffix_append s u).isInfix

section

variable [BEq α] [LawfulBEq α]

theorem after_none {l : List α} (h : ¬key <:+: l) : after key l = none := by
  rw [after, Option.map_eq_none_iff, List.find?_eq_none]
  intro tail htail hprefix
  exact h ((List.isPrefixOf_iff_prefix.mp hprefix).isInfix.trans
    ((List.mem_tails _ _).mp htail).isInfix)

theorem after_eq {sep : α} {head rest : List α} (hsep : sep ∉ key) (hne : key ≠ [])
    (hhead : ¬key <:+: head) : after key (head ++ sep :: (key ++ rest)) = some rest := by
  have hskip : ∀ l l' : List α, ¬key <+: l ++ sep :: l' →
      key.isPrefixOf (l ++ sep :: l') = false := fun l l' h =>
    Bool.eq_false_iff.mpr fun ht => h (List.isPrefixOf_iff_prefix.mp ht)
  induction head with
  | nil =>
    have hnot : ¬key <+: [] ++ sep :: (key ++ rest) := fun h =>
      hne (List.prefix_nil.mp (prefix_before hsep h))
    have htails : (key ++ rest).tails = (key ++ rest) :: (key ++ rest).tails.tail := by
      cases key ++ rest <;> rfl
    rw [after, List.nil_append, List.tails_cons, List.find?_cons, ← List.nil_append (sep :: _),
      hskip _ _ hnot, htails, List.find?_cons,
      List.isPrefixOf_iff_prefix.mpr (List.prefix_append key rest)]
    exact congrArg some (List.drop_left ..)
  | cons a head ih =>
    have hnot : ¬key <+: (a :: head) ++ sep :: (key ++ rest) := fun h =>
      hhead (prefix_before hsep h).isInfix
    have hrest := ih fun h => hhead (h.trans (List.infix_cons (List.infix_refl _)))
    rw [after] at hrest ⊢
    rw [List.cons_append, List.tails_cons, List.find?_cons]
    rw [← List.cons_append, hskip _ _ hnot]
    exact hrest

end

theorem infix_of_map {f : α → β} (hf : ∀ a b, f a = f b → a = b) {key l : List α}
    (h : key.map f <:+: l.map f) : key <:+: l := by
  obtain ⟨s, t, ht⟩ := h
  obtain ⟨s', r, rfl, hs, hr⟩ := List.map_eq_append_iff.mp ht.symm
  obtain ⟨s'', m, rfl, hs', hm⟩ := List.map_eq_append_iff.mp hs
  obtain rfl := List.map_injective_iff.mpr (fun a b => hf a b) hm
  exact ⟨s'', r, rfl⟩

end RigControl.Lib
