import Mathlib.Computability.Language

/-!
# Words of strokes

A stroke is a word that opens, goes on inside and closes; `strokes` is the language of
the words made of strokes, over any alphabet whose letters are marked with the part
they play. `scan` reads a word letter by letter and keeps whether it stands inside a
stroke: it gets through exactly the words that can be completed to strokes
(`scan_isSome_iff`).
-/

namespace RigControl.Lib

open Computability

/-- The part a letter plays in a stroke. -/
inductive Mark where
  | opens | inside | closes
  deriving DecidableEq, Repr

section

variable {α : Type} (mark : α → Mark)

/-- The words of one letter with the mark `m`. -/
def lettersOf (m : Mark) : Language α := {w | ∃ a, w = [a] ∧ mark a = m}

def stroke : Language α :=
  lettersOf mark .opens * (lettersOf mark .inside)∗ * lettersOf mark .closes

def strokes : Language α := (stroke mark)∗

/-- Strokes, and behind them the beginning of one if `b` says so. -/
def strokesUpTo : Bool → Language α
  | false => strokes mark
  | true => strokes mark * (lettersOf mark .opens * (lettersOf mark .inside)∗)

/-- Whether a letter leads into a stroke or out of it, where it may stand. -/
def Mark.next : Bool → Mark → Option Bool
  | false, .opens => some true
  | true, .inside => some true
  | true, .closes => some false
  | _, _ => none

def scan (b : Bool) : List α → Option Bool
  | [] => some b
  | a :: w => (Mark.next b (mark a)).bind fun c => scan c w

end

variable {α : Type} {mark : α → Mark}

theorem scan_append (b : Bool) (u v : List α) :
    scan mark b (u ++ v) = (scan mark b u).bind fun c => scan mark c v := by
  induction u generalizing b with
  | nil => rfl
  | cons a u ih =>
    simp only [List.cons_append, scan, Option.bind_assoc]
    congr
    funext c
    exact ih c

theorem scan_snoc (b : Bool) (u : List α) (a : α) :
    scan mark b (u ++ [a]) = (scan mark b u).bind fun c => Mark.next c (mark a) := by
  rw [scan_append]
  congr
  funext c
  simp [scan]

/-- A word that gets through has prefixes that do. -/
theorem scan_prefix {b : Bool} {u v : List α} (h : (scan mark b v).isSome) (hu : u <+: v) :
    (scan mark b u).isSome := by
  obtain ⟨w, rfl⟩ := hu
  rw [scan_append] at h
  cases hs : scan mark b u with
  | none => rw [hs] at h; cases h
  | some c => rfl

theorem scan_inside {w : List α} (h : w ∈ (lettersOf mark .inside)∗) :
    scan mark true w = some true := by
  obtain ⟨L, rfl, hL⟩ := Language.mem_kstar.mp h
  induction L with
  | nil => rfl
  | cons x L ih =>
    have hL' := fun y hy => hL y (List.mem_cons_of_mem x hy)
    have hrest := ih hL' (Language.join_mem_kstar hL')
    obtain ⟨a, rfl, ha⟩ := hL x List.mem_cons_self
    simpa [scan, ha, Mark.next] using hrest

theorem scan_stroke {w : List α} (h : w ∈ stroke mark) : scan mark false w = some false := by
  obtain ⟨u, hu, z, ⟨c, rfl, hc⟩, rfl⟩ := Language.mem_mul.mp h
  obtain ⟨x, ⟨o, rfl, ho⟩, v, hv, rfl⟩ := Language.mem_mul.mp hu
  have hopen : scan mark false ([o] ++ v) = some true := by
    simpa [scan, ho, Mark.next] using scan_inside hv
  rw [scan_snoc, hopen, Option.bind_some, hc]
  rfl

theorem scan_strokes {w : List α} (h : w ∈ strokes mark) : scan mark false w = some false := by
  obtain ⟨L, rfl, hL⟩ := Language.mem_kstar.mp h
  induction L with
  | nil => rfl
  | cons x L ih =>
    have hL' := fun y hy => hL y (List.mem_cons_of_mem x hy)
    have hrest := ih hL' (Language.join_mem_kstar hL')
    rw [List.flatten_cons, scan_append, scan_stroke (hL x List.mem_cons_self), Option.bind_some]
    exact hrest

theorem strokes_snoc {u w : List α} (hu : u ∈ strokes mark) (hw : w ∈ stroke mark) :
    u ++ w ∈ strokes mark := by
  obtain ⟨L, rfl, hL⟩ := Language.mem_kstar.mp hu
  refine Language.mem_kstar.mpr ⟨L ++ [w], by simp, fun y hy => ?_⟩
  rcases List.mem_append.mp hy with hy | hy
  · exact hL y hy
  · exact List.mem_singleton.mp hy ▸ hw

/-- What gets through is strokes, and inside a stroke what there is of it. -/
theorem of_scan {w : List α} {b : Bool} (h : scan mark false w = some b) :
    w ∈ strokesUpTo mark b := by
  induction w using List.reverseRecOn generalizing b with
  | nil =>
    cases h
    exact Language.nil_mem_kstar _
  | append_singleton w a ih =>
    rw [scan_snoc] at h
    obtain ⟨c, hc, hnext⟩ := Option.bind_eq_some_iff.mp h
    have hw := ih hc
    have hletter : [a] ∈ lettersOf mark (mark a) := ⟨a, rfl, rfl⟩
    cases c <;> cases ha : mark a <;> rw [ha] at hnext hletter <;> cases hnext
    · exact ⟨w, hw, [a], ⟨[a], hletter, [], Language.nil_mem_kstar _, rfl⟩, rfl⟩
    · obtain ⟨u, hu, v, ⟨o, ho, i, hi, rfl⟩, rfl⟩ := hw
      obtain ⟨L, rfl, hL⟩ := Language.mem_kstar.mp hi
      refine ⟨u, hu, o ++ (L ++ [[a]]).flatten, ⟨o, ho, _, Language.join_mem_kstar ?_, rfl⟩,
        by simp⟩
      intro y hy
      rcases List.mem_append.mp hy with hy | hy
      · exact hL y hy
      · exact List.mem_singleton.mp hy ▸ hletter
    · obtain ⟨u, hu, v, hv, rfl⟩ := hw
      rw [List.append_assoc]
      exact strokes_snoc hu ⟨v, hv, [a], hletter, rfl⟩

/-- The words that get through are those that can be completed to strokes. -/
theorem scan_isSome_iff {c : α} (hc : mark c = .closes) (w : List α) :
    (scan mark false w).isSome ↔ ∃ v, w ++ v ∈ strokes mark := by
  constructor
  · intro h
    obtain ⟨b, hb⟩ := Option.isSome_iff_exists.mp h
    have hw := of_scan hb
    cases b with
    | false => exact ⟨[], (List.append_nil w).symm ▸ hw⟩
    | true =>
      obtain ⟨u, hu, v, hv, rfl⟩ := hw
      refine ⟨[c], ?_⟩
      rw [List.append_assoc]
      exact strokes_snoc hu ⟨v, hv, [c], ⟨c, rfl, hc⟩, rfl⟩
  · rintro ⟨v, hv⟩
    exact scan_prefix (by rw [scan_strokes hv]; rfl) (List.prefix_append w v)

end RigControl.Lib
