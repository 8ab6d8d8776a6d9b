import RigControl.Lib.Decimal

/-!
# How a number stands in a text

Blanks, a sign, digits, and whatever is behind them. `atoi` skips the blanks and does not
look behind the digits, and keeps the last 32 bits of the number; `wholeInt` and `numeral`
want the digits and nothing else. The lemmas say what each of them reads by what the text
looks like.
-/

namespace RigControl.Lib

structure NumberText where
  blanks : CString
  sign : Option Char
  digits : CString
  rest : CString
  deriving DecidableEq, Repr

/-- A sign or none, and what is behind it. -/
def splitSign : CString → Option Char × CString
  | '-' :: ds => (some '-', ds)
  | '+' :: ds => (some '+', ds)
  | ds => (none, ds)

def numberText (text : CString) : NumberText :=
  let (sign, ds) := splitSign (text.dropWhile isSpace)
  ⟨text.takeWhile isSpace, sign, ds.takeWhile Char.isDigit, ds.dropWhile Char.isDigit⟩

namespace NumberText

/-- The number that the digits are, however large. -/
def value (t : NumberText) : Int :=
  if t.sign = some '-' then -Lib.digits t.digits else Lib.digits t.digits

/-- A number and nothing else. -/
def Whole (t : NumberText) : Prop := t.blanks = [] ∧ t.digits ≠ [] ∧ t.rest = []

instance (t : NumberText) : Decidable t.Whole := inferInstanceAs (Decidable (_ ∧ _ ∧ _))

/-- The number fits in a `long`, and its last 32 bits are those of `n`. -/
def Low (t : NumberText) (n : Int) : Prop :=
  -2 ^ 63 ≤ t.value ∧ t.value < 2 ^ 63 ∧ t.value % 2 ^ 32 = n

instance (t : NumberText) (n : Int) : Decidable (t.Low n) :=
  inferInstanceAs (Decidable (_ ∧ _ ∧ _))

/-- It fits in a `long`, and its last 32 bits are a positive `int`. -/
def LowPositive (t : NumberText) : Prop :=
  -2 ^ 63 ≤ t.value ∧ t.value < 2 ^ 63 ∧ 0 < t.value % 2 ^ 32 ∧ t.value % 2 ^ 32 < 2 ^ 31

instance (t : NumberText) : Decidable t.LowPositive :=
  inferInstanceAs (Decidable (_ ∧ _ ∧ _ ∧ _))

end NumberText

/-! ## The `int` of a number -/

/-- A `long` is cut to its last 32 bits; what is no `long` is the nearest one first. -/
theorem toInt32_cases (n : Int) :
    (n < -2 ^ 63 ∧ toInt32 n = 0) ∨ (2 ^ 63 ≤ n ∧ toInt32 n = -1) ∨
      (-2 ^ 63 ≤ n ∧ n < 2 ^ 63 ∧ toInt32 n = n.bmod (2 ^ 32)) := by
  unfold toInt32
  by_cases hlow : n < -2 ^ 63
  · have hclamp : max (-2 ^ 63) (min (2 ^ 63 - 1) n) = -2 ^ 63 := by omega
    rw [hclamp]
    exact .inl ⟨hlow, rfl⟩
  · by_cases hhigh : n < 2 ^ 63
    · have hclamp : max (-2 ^ 63) (min (2 ^ 63 - 1) n) = n := by omega
      rw [hclamp]
      exact .inr (.inr ⟨by omega, hhigh, rfl⟩)
    · have hclamp : max (-2 ^ 63) (min (2 ^ 63 - 1) n) = 2 ^ 63 - 1 := by omega
      rw [hclamp]
      exact .inr (.inl ⟨by omega, rfl⟩)

theorem bmod_cases (n : Int) :
    (n % 2 ^ 32 < 2 ^ 31 ∧ n.bmod (2 ^ 32) = n % 2 ^ 32) ∨
      (2 ^ 31 ≤ n % 2 ^ 32 ∧ n.bmod (2 ^ 32) = n % 2 ^ 32 - 2 ^ 32) := by
  have hdef : n.bmod (2 ^ 32) =
      if n % 2 ^ 32 < (2 ^ 32 + 1) / 2 then n % 2 ^ 32 else n % 2 ^ 32 - 2 ^ 32 := rfl
  rw [hdef]
  split <;> omega

/-! ## What is read -/

theorem digits_takeWhile (ds : CString) : digits (ds.takeWhile Char.isDigit) = digits ds := by
  rw [digits, digits, List.takeWhile_eq_self_iff.mpr fun c hc => List.mem_takeWhile_imp hc]

theorem atoi_eq_value (text : CString) : atoi text = (numberText text).value := by
  unfold atoi numberText NumberText.value splitSign
  split <;> simp_all [digits_takeWhile]

/-- Digits to the end, and at least one. -/
theorem whole_iff (ds : CString) :
    ¬(ds = [] ∨ ¬ds.all Char.isDigit = true) ↔
      ds.takeWhile Char.isDigit ≠ [] ∧ ds.dropWhile Char.isDigit = [] := by
  rw [not_or, not_not, List.dropWhile_eq_nil_iff, ← List.all_eq_true]
  refine and_congr_left fun hall => not_congr ?_
  rw [List.takeWhile_eq_self_iff.mpr (List.all_eq_true.mp hall)]

/-- No blank comes first. -/
theorem numberText_of_blanks (h : text.takeWhile isSpace = []) :
    numberText text = ⟨[], (splitSign text).1, (splitSign text).2.takeWhile Char.isDigit,
      (splitSign text).2.dropWhile Char.isDigit⟩ := by
  have hdrop : text.dropWhile isSpace = text := by
    have happend := @List.takeWhile_append_dropWhile _ isSpace text
    rwa [h, List.nil_append] at happend
  unfold numberText
  rw [h, hdrop]

/-- A blank in front is no digit and no sign. -/
theorem splitSign_of_blank (h : text.takeWhile isSpace ≠ []) :
    splitSign text = (none, text) ∧ (text = [] ∨ ¬text.all Char.isDigit = true) := by
  rcases text with _ | ⟨c, cs⟩
  · exact absurd rfl h
  have hspace : isSpace c = true := by
    by_contra hno
    exact h (List.takeWhile_cons_of_neg hno)
  constructor
  · unfold splitSign
    split
    · rename_i heq
      cases heq
      exact absurd hspace (by decide)
    · rename_i heq
      cases heq
      exact absurd hspace (by decide)
    · rfl
  · refine .inr fun hall => ?_
    have hdigit := List.all_eq_true.mp hall c List.mem_cons_self
    rw [isSpace_of_isDigit hdigit] at hspace
    cases hspace

theorem value_split (sign : Option Char) (ds : CString) :
    NumberText.value ⟨[], sign, ds.takeWhile Char.isDigit, ds.dropWhile Char.isDigit⟩ =
      if sign = some '-' then -digits ds else digits ds := by
  unfold NumberText.value
  simp only [digits_takeWhile]

/-- A sign or none, then digits to the end. -/
theorem numberText_whole_iff (text : CString) : (numberText text).Whole ↔
    ¬((splitSign text).2 = [] ∨ ¬(splitSign text).2.all Char.isDigit = true) := by
  by_cases hblanks : text.takeWhile isSpace = []
  · rw [numberText_of_blanks hblanks, whole_iff]
    exact and_iff_right rfl
  · obtain ⟨hsplit, hbad⟩ := splitSign_of_blank hblanks
    rw [hsplit]
    exact iff_of_false (fun h => hblanks h.1) (not_not.mpr hbad)

theorem value_of_whole (h : (numberText text).Whole) : (numberText text).value =
    if (splitSign text).1 = some '-' then -digits (splitSign text).2
    else digits (splitSign text).2 := by
  rw [numberText_of_blanks h.1, value_split]

/-- `wholeInt` takes a number that has nothing around it, in its range. -/
theorem wholeInt_eq_some {bound n : Int} : wholeInt bound text = some n ↔
    (numberText text).Whole ∧ (numberText text).value = n ∧ -bound ≤ n ∧ n < bound := by
  have hparts : wholeInt bound text =
      if (splitSign text).2 = [] ∨ ¬(splitSign text).2.all Char.isDigit = true then none
      else
        let n := if (splitSign text).1 = some '-' then -digits (splitSign text).2
          else digits (splitSign text).2
        if -bound ≤ n ∧ n < bound then some n else none := by
    unfold wholeInt
    split
    rename_i negative ds hsplit
    have hsame : ((splitSign text).1 = some '-' ↔ negative = true) ∧ (splitSign text).2 = ds := by
      unfold splitSign
      split at hsplit
      · cases hsplit
        simp
      · cases hsplit
        simp
      · cases hsplit
        simp_all
    simp only [hsame.1, hsame.2]
  rw [hparts]
  by_cases hwhole : (numberText text).Whole
  · rw [if_neg ((numberText_whole_iff text).mp hwhole), ← value_of_whole hwhole,
      Option.ite_none_right_eq_some, Option.some.injEq]
    constructor
    · rintro ⟨hrange, rfl⟩
      exact ⟨hwhole, rfl, hrange⟩
    · rintro ⟨-, rfl, hrange⟩
      exact ⟨hrange, rfl⟩
  · rw [if_pos (not_not.mp (mt (numberText_whole_iff text).mpr hwhole))]
    exact iff_of_false (Option.some_ne_none _).symm fun h => hwhole h.1

theorem sign_of_whole (h : (numberText text).Whole) :
    (numberText text).sign = (splitSign text).1 := by
  rw [numberText_of_blanks h.1]

/-- `numeral` takes one of any size, but no plus. -/
theorem numeral_eq_some {n : Int} : numeral text = some n ↔
    (numberText text).Whole ∧ (numberText text).sign ≠ some '+' ∧ (numberText text).value = n := by
  by_cases hplus : (splitSign text).1 = some '+'
  · have hnone : numeral text = none := by
      unfold splitSign at hplus
      split at hplus
      · cases hplus
      · simp [numeral]
      · cases hplus
    rw [hnone]
    exact iff_of_false (Option.some_ne_none _).symm fun h => h.2.1 ((sign_of_whole h.1).trans hplus)
  have hparts : numeral text =
      if (splitSign text).2 = [] ∨ ¬(splitSign text).2.all Char.isDigit = true then none
      else some (if (splitSign text).1 = some '-' then -digits (splitSign text).2
        else digits (splitSign text).2) := by
    unfold numeral
    split
    rename_i negative ds hsplit
    have hsame : ((splitSign text).1 = some '-' ↔ negative = true) ∧ (splitSign text).2 = ds := by
      unfold splitSign at hplus ⊢
      split at hsplit
      · cases hsplit
        simp
      · cases hsplit
        split at hplus
        · simp_all
        · simp at hplus
        · simp_all
    simp only [hsame.1, hsame.2]
  rw [hparts]
  by_cases hwhole : (numberText text).Whole
  · rw [if_neg ((numberText_whole_iff text).mp hwhole), ← value_of_whole hwhole,
      Option.some.injEq, sign_of_whole hwhole]
    exact ⟨fun h => ⟨hwhole, hplus, h⟩, fun h => h.2.2⟩
  · rw [if_pos (not_not.mp (mt (numberText_whole_iff text).mpr hwhole))]
    exact iff_of_false (Option.some_ne_none _).symm fun h => hwhole h.1

/-! ### What `atoi` reads -/

theorem atoi32_eq (text : CString) : atoi32 text = toInt32 (numberText text).value := by
  rw [atoi32, atoi_eq_value]

theorem atoi32_pos_iff : 0 < atoi32 text ↔ (numberText text).LowPositive := by
  rw [atoi32_eq, NumberText.LowPositive]
  generalize (numberText text).value = n
  have hbmod := bmod_cases n
  rcases toInt32_cases n with ⟨hout, h⟩ | ⟨hout, h⟩ | ⟨hlo, hhi, h⟩ <;> rw [h] <;> omega

theorem atoi32_eq_one_iff : atoi32 text = 1 ↔ (numberText text).Low 1 := by
  rw [atoi32_eq, NumberText.Low]
  generalize (numberText text).value = n
  have hbmod := bmod_cases n
  rcases toInt32_cases n with ⟨hout, h⟩ | ⟨hout, h⟩ | ⟨hlo, hhi, h⟩ <;> rw [h] <;> omega

end RigControl.Lib
