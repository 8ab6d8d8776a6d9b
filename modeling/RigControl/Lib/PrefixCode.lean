import Mathlib.Data.List.Basic

/-!
# Prefix codes, and cutting them off

Each letter has a code word, and no word begins another, so a text is read back from
its code, and what begins a code and is one itself is the code of the text's beginning
(`PrefixCode.prefix_of_encode`). A code cut off after so many symbols is in general
the code of no text: `PrefixCode.take_iff` says when it is, and that it then is the code
of as much of the text as fits.
-/

namespace RigControl.Lib

variable {α β : Type}

structure PrefixCode (enc : α → List β) : Prop where
  ne_nil : ∀ a, enc a ≠ []
  eq_of_append : ∀ {a b x y}, enc a ++ x = enc b ++ y → a = b

def encode (enc : α → List β) (l : List α) : List β := l.flatMap enc

/-- As many whole letters from the front as fit. -/
def fitting (enc : α → List β) : Nat → List α → List α
  | _, [] => []
  | n, a :: l => if (enc a).length ≤ n then a :: fitting enc (n - (enc a).length) l else []

/-- The longest beginning of `l` whose code has at most `n` symbols. -/
structure IsFitting (enc : α → List β) (n : Nat) (l p : List α) : Prop where
  pre : p <+: l
  fits : (encode enc p).length ≤ n
  longest : ∀ q, q <+: l → (encode enc q).length ≤ n → q <+: p

variable {enc : α → List β} {n : Nat} {l p q : List α}

theorem encode_cons (a : α) (l : List α) : encode enc (a :: l) = enc a ++ encode enc l :=
  List.flatMap_cons

theorem encode_append (p q : List α) : encode enc (p ++ q) = encode enc p ++ encode enc q :=
  List.flatMap_append

theorem encode_mono (h : p <+: q) : encode enc p <+: encode enc q := by
  obtain ⟨t, rfl⟩ := h
  rw [encode_append]
  exact List.prefix_append _ _

theorem isFitting_fitting (enc : α → List β) (n : Nat) (l : List α) :
    IsFitting enc n l (fitting enc n l) := by
  induction l generalizing n with
  | nil =>
    exact ⟨List.nil_prefix, Nat.zero_le _, fun q hq _ => (List.prefix_nil.mp hq) ▸ List.nil_prefix⟩
  | cons a l ih =>
    simp only [fitting]
    split
    · rename_i ha
      obtain ⟨hpre, hfits, hlongest⟩ := ih (n - (enc a).length)
      refine ⟨(List.prefix_cons_inj a).mpr hpre, ?_, fun q hq hlen => ?_⟩
      · rw [encode_cons, List.length_append]
        omega
      · rcases List.prefix_cons_iff.mp hq with rfl | ⟨q', rfl, hq'⟩
        · exact List.nil_prefix
        · rw [encode_cons, List.length_append] at hlen
          exact (List.prefix_cons_inj a).mpr (hlongest q' hq' (by omega))
    · rename_i ha
      refine ⟨List.nil_prefix, Nat.zero_le _, fun q hq hlen => ?_⟩
      rcases List.prefix_cons_iff.mp hq with rfl | ⟨q', rfl, -⟩
      · exact List.nil_prefix
      · rw [encode_cons, List.length_append] at hlen
        omega

theorem IsFitting.unique (hp : IsFitting enc n l p) (hq : IsFitting enc n l q) : p = q :=
  (hq.longest p hp.pre hp.fits).eq_of_length_le (hp.longest q hq.pre hq.fits).length_le

/-- A beginning that fills the space is as much as fits. -/
theorem exists_filling_iff :
    (∃ q, q <+: l ∧ (encode enc q).length = n) ↔ (encode enc (fitting enc n l)).length = n := by
  obtain ⟨hpre, hfits, hlongest⟩ := isFitting_fitting enc n l
  constructor
  · rintro ⟨q, hq, hlen⟩
    have hle := (encode_mono (hlongest q hq (Nat.le_of_eq hlen)) : encode enc q <+: _).length_le
    omega
  · exact fun h => ⟨_, hpre, h⟩

namespace PrefixCode

variable (h : PrefixCode enc)

include h

/-- What begins a code and is one itself is the code of the beginning. -/
theorem prefix_of_encode (hpre : encode enc q <+: encode enc l) : q <+: l := by
  induction q generalizing l with
  | nil => exact List.nil_prefix
  | cons a q ih =>
    cases l with
    | nil =>
      rw [encode_cons] at hpre
      exact absurd (List.append_eq_nil_iff.mp (List.prefix_nil.mp hpre)).1 (h.ne_nil a)
    | cons b l =>
      rw [encode_cons, encode_cons] at hpre
      have hab : a = b := by
        obtain ⟨t, ht⟩ := hpre
        rw [List.append_assoc] at ht
        exact h.eq_of_append ht
      subst hab
      exact (List.prefix_cons_inj a).mpr (ih ((List.prefix_append_right_inj _).mp hpre))

/-- A longer text has a longer code. -/
theorem eq_of_length (hpre : q <+: p) (hlen : (encode enc p).length ≤ (encode enc q).length) :
    q = p := by
  obtain ⟨t, rfl⟩ := hpre
  rw [encode_append, List.length_append] at hlen
  cases t with
  | nil => rw [List.append_nil]
  | cons a t =>
    have ha := List.length_pos_iff.mpr (h.ne_nil a)
    rw [encode_cons, List.length_append] at hlen
    omega

/-- A code that is cut off is the code of as much as fits exactly if it is a code at all,
and it is one exactly if nothing is cut off or the cut comes between two words. -/
theorem take_iff (n : Nat) (l : List α) :
    ((encode enc l).take n = encode enc (fitting enc n l) ↔
        ∃ q, (encode enc l).take n = encode enc q) ∧
      ((encode enc l).take n = encode enc (fitting enc n l) ↔
        (encode enc l).length ≤ n ∨ ∃ q, q <+: l ∧ (encode enc q).length = n) := by
  have hfitting := isFitting_fitting enc n l
  have hcut : (∃ q, (encode enc l).take n = encode enc q) →
      (encode enc l).length ≤ n ∨ ∃ q, q <+: l ∧ (encode enc q).length = n := by
    rintro ⟨q, hq⟩
    rcases Nat.lt_or_ge n (encode enc l).length with hlt | hle
    · refine .inr ⟨q, h.prefix_of_encode (hq ▸ List.take_prefix n _), ?_⟩
      rw [← hq, List.length_take]
      omega
    · exact .inl hle
  have hwhole : (encode enc l).length ≤ n ∨ (∃ q, q <+: l ∧ (encode enc q).length = n) →
      (encode enc l).take n = encode enc (fitting enc n l) := by
    rintro (hle | ⟨q, hpre, hlen⟩)
    · have hall : l = fitting enc n l :=
        (hfitting.longest l List.prefix_rfl hle).eq_of_length_le hfitting.pre.length_le
      rw [← hall, List.take_of_length_le hle]
    · have heq : q = fitting enc n l :=
        h.eq_of_length (hfitting.longest q hpre (Nat.le_of_eq hlen)) (hlen ▸ hfitting.fits)
      rw [← heq, ← hlen]
      exact (List.prefix_iff_eq_take.mp (encode_mono hpre)).symm
  exact ⟨⟨fun heq => ⟨_, heq⟩, fun hq => hwhole (hcut hq)⟩,
    ⟨fun heq => hcut ⟨_, heq⟩, hwhole⟩⟩

end PrefixCode

end RigControl.Lib
