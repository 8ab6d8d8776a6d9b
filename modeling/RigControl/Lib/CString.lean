import Mathlib.Data.List.Basic
import Mathlib.Data.List.TakeWhile

/-!
# C strings

A string as a list of characters, and the functions of the C library that both the
desktop and the agent use on addresses.
-/

namespace RigControl.Lib

abbrev CString := List Char

/-- Before and behind the last colon, by `strrchr`. -/
def splitAtColon (serial : CString) : Option (CString × CString) :=
  match serial.reverse.dropWhile (· ≠ ':') with
  | _ :: host => some (host.reverse, (serial.reverse.takeWhile (· ≠ ':')).reverse)
  | [] => none

def isSpace (c : Char) : Bool := c = ' ' || (9 ≤ c.toNat && c.toNat ≤ 13)

def digits (cs : CString) : Int :=
  (cs.takeWhile Char.isDigit).foldl (fun n c => n * 10 + (c.toNat - 48 : Nat)) 0

/-- Blanks, a sign, digits. -/
def atoi (cs : CString) : Int :=
  match cs.dropWhile isSpace with
  | '-' :: ds => -digits ds
  | '+' :: ds => digits ds
  | ds => digits ds

theorem splitAtColon_append (host : CString) {port : CString} (h : ':' ∉ port) :
    splitAtColon (host ++ ':' :: port) = some (host, port) := by
  have hport : ∀ c ∈ port.reverse, decide (c ≠ ':') = true := by
    intro c hc
    refine decide_eq_true fun hcolon => h ?_
    rw [← hcolon]
    exact List.mem_reverse.mp hc
  have hrev : (host ++ ':' :: port).reverse = port.reverse ++ ':' :: host.reverse := by simp
  have hdrop : (port.reverse ++ ':' :: host.reverse).dropWhile (· ≠ ':') = ':' :: host.reverse := by
    rw [List.dropWhile_append_of_pos hport]
    rfl
  have htake : (port.reverse ++ ':' :: host.reverse).takeWhile (· ≠ ':') = port.reverse := by
    rw [List.takeWhile_append_of_pos hport]
    simp
  unfold splitAtColon
  simp only [hrev, hdrop, htake, List.reverse_reverse]

theorem colon_mem_of_splitAtColon {serial host port : CString}
    (h : splitAtColon serial = some (host, port)) : ':' ∈ serial := by
  by_contra hcolon
  have hall : ∀ c ∈ serial.reverse, decide (c ≠ ':') = true := by
    intro c hc
    refine decide_eq_true fun heq => hcolon ?_
    rw [← heq]
    exact List.mem_reverse.mp hc
  have hdrop : serial.reverse.dropWhile (· ≠ ':') = [] := List.dropWhile_eq_nil_iff.mpr hall
  unfold splitAtColon at h
  simp only [hdrop] at h
  cases h

/-! ## Lines -/

theorem mem_of_mem_splitOn {sep c : Char} {part cs : CString} (hpart : part ∈ cs.splitOn sep)
    (hc : c ∈ part) : c ∈ cs := by
  induction cs generalizing part with
  | nil => simp_all
  | cons d cs ih =>
    rw [List.splitOn_cons_eq_if_modifyHead] at hpart
    split at hpart
    · rcases List.mem_cons.mp hpart with rfl | hpart
      · cases hc
      · exact List.mem_cons_of_mem _ (ih hpart hc)
    · cases hsplit : cs.splitOn sep with
      | nil => exact absurd hsplit (List.splitOn_ne_nil sep cs)
      | cons first parts =>
        rw [hsplit] at hpart ih
        rcases List.mem_cons.mp hpart with rfl | hpart
        · rcases List.mem_cons.mp hc with rfl | hc
          · exact List.mem_cons_self
          · exact List.mem_cons_of_mem _ (ih List.mem_cons_self hc)
        · exact List.mem_cons_of_mem _ (ih (List.mem_cons_of_mem _ hpart) hc)

/-- Lines that are written one after the other are split again; behind the last there is
nothing. -/
theorem splitOn_lines {sep : Char} {lines : List CString} (h : ∀ line ∈ lines, sep ∉ line) :
    (lines.flatMap fun line => line ++ [sep]).splitOn sep = lines ++ [[]] := by
  induction lines with
  | nil => rfl
  | cons line lines ih =>
    rw [List.flatMap_cons, List.append_assoc, List.singleton_append,
      List.splitOn_append_cons_self_of_not_mem (h line List.mem_cons_self),
      ih fun l hl => h l (List.mem_cons_of_mem _ hl), List.cons_append]

section

variable {α β : Type} {f g : α → Option β}

/-- Two readers that leave bad lines out agree on a text where they agree on each line,
and only there: whatever `f` can read is `Good`, and `f` leaves out nothing that `g`
reads as something good. -/
theorem filterMap_eq_iff (Good : β → Prop) {lines : List α}
    (hf : ∀ a ∈ lines, ∀ b, f a = some b → Good b)
    (hg : ∀ a ∈ lines, ∀ b, g a = some b → Good b → (f a).isSome) :
    lines.filterMap f = lines.filterMap g ↔ ∀ a ∈ lines, f a = g a := by
  constructor
  · intro h
    have hgood : ∀ a ∈ lines, (g a).isSome → (f a).isSome := by
      intro a ha hsome
      obtain ⟨b, hb⟩ := Option.isSome_iff_exists.mp hsome
      have hmem : b ∈ lines.filterMap f := by
        rw [h]
        exact List.mem_filterMap.mpr ⟨a, ha, hb⟩
      obtain ⟨c, hcmem, hc⟩ := List.mem_filterMap.mp hmem
      exact hg a ha b hb (hf c hcmem b hc)
    clear hf hg
    induction lines with
    | nil => exact fun a ha => by cases ha
    | cons c lines ih =>
      have hrest : ∀ a ∈ lines, (g a).isSome → (f a).isSome :=
        fun a ha => hgood a (List.mem_cons_of_mem _ ha)
      have hshorter : (lines.filterMap g).length ≤ (lines.filterMap f).length := by
        simp only [List.length_filterMap_eq_countP]
        exact List.countP_mono_left hrest
      have hhead : f c = g c ∧ lines.filterMap f = lines.filterMap g := by
        cases hfc : f c with
        | none =>
          cases hgc : g c with
          | none => simpa [List.filterMap_cons, hfc, hgc] using h
          | some b => simp [hfc, hgc] at hgood
        | some b =>
          cases hgc : g c with
          | none =>
            -- then there are more lines that `f` reads than lines that `g` reads
            have hlength := congrArg List.length h
            simp only [List.filterMap_cons, hfc, hgc, List.length_cons] at hlength
            omega
          | some d => simpa [List.filterMap_cons, hfc, hgc] using h
      intro a ha
      rcases List.mem_cons.mp ha with rfl | ha
      · exact hhead.1
      · exact ih hhead.2 hrest a ha
  · intro h
    exact List.filterMap_congr h

end

end RigControl.Lib
