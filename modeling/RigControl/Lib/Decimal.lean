import Mathlib.Algebra.Group.Int.Defs
import Mathlib.Algebra.Group.Nat.Defs
import RigControl.Lib.CString

/-!
# Decimal numbers in text

What `%d` prints, and `atoi` on it. `atoi` reads no further than the digits, so it
reads a number back from the front of any text that goes on with something else.
`wholeInt` takes a text that is a number as a whole, and nothing else.
-/

namespace RigControl.Lib

/-- `%d`. -/
def decimal : Int → CString
  | .ofNat n => Nat.toDigits 10 n
  | .negSucc n => '-' :: Nat.toDigits 10 (n + 1)

/-- A `long`, by `strtol`, cut to an `int`. -/
def toInt32 (n : Int) : Int :=
  (max (-2 ^ 63) (min (2 ^ 63 - 1) n)).bmod (2 ^ 32)

/-- `atoi` of a 64-bit libc: `strtol`, and the cast. -/
def atoi32 (cs : CString) : Int := toInt32 (atoi cs)

/-- A sign or none, and digits to the end, of a number that is in range; as Swift and Java
read a number. -/
def wholeInt (bound : Int) (text : CString) : Option Int :=
  let (negative, ds) : Bool × CString :=
    match text with
    | '-' :: ds => (true, ds)
    | '+' :: ds => (false, ds)
    | ds => (false, ds)
  if ds = [] ∨ ¬ ds.all Char.isDigit then none
  else
    let n := if negative then -digits ds else digits ds
    if -bound ≤ n ∧ n < bound then some n else none

/-- A minus or none, and digits to the end: the number, however large. -/
def numeral (text : CString) : Option Int :=
  let (negative, ds) : Bool × CString :=
    match text with
    | '-' :: ds => (true, ds)
    | ds => (false, ds)
  if ds = [] ∨ ¬ ds.all Char.isDigit then none
  else some (if negative then -digits ds else digits ds)

theorem isDigit_of_mem_toDigits {n : Nat} {c : Char} (h : c ∈ Nat.toDigits 10 n) :
    c.isDigit = true :=
  Nat.isDigit_of_mem_toDigits (by decide) (by decide) h

theorem digits_eq_ofDigitChars (cs : CString) :
    digits cs = (Nat.ofDigitChars 10 (cs.takeWhile Char.isDigit) 0 : Nat) := by
  have hfold : ∀ (ds : CString) (m : Nat),
      ds.foldl (fun (n : Int) c => n * 10 + (c.toNat - 48 : Nat)) m = (Nat.ofDigitChars 10 ds m : Nat) := by
    intro ds
    induction ds with
    | nil => exact fun _ => rfl
    | cons c ds ih =>
      intro m
      rw [Nat.ofDigitChars_cons, List.foldl_cons, ← ih]
      congr 1
      push_cast
      omega
  exact hfold _ 0

/-- The digits of a number, and then something that is no digit. -/
theorem digits_toDigits (n : Nat) {rest : CString} (h : ∀ c ∈ rest.head?, c.isDigit = false) :
    digits (Nat.toDigits 10 n ++ rest) = n := by
  have htake : (Nat.toDigits 10 n ++ rest).takeWhile Char.isDigit = Nat.toDigits 10 n := by
    rw [List.takeWhile_append_of_pos fun c hc => isDigit_of_mem_toDigits hc]
    cases rest with
    | nil => simp
    | cons c cs => simp [h c (by simp)]
  rw [digits_eq_ofDigitChars, htake, Nat.ofDigitChars_ten_toDigits]

theorem isSpace_of_isDigit {c : Char} (h : c.isDigit = true) : isSpace c = false := by
  have hbounds : 48 ≤ c.toNat ∧ c.toNat ≤ 57 := Char.isDigit_iff_toNat.mp h
  unfold isSpace
  have hne : c ≠ ' ' := by
    rintro rfl
    cases h
  simp only [hne, decide_false, Bool.false_or, Bool.and_eq_false_iff, decide_eq_false_iff_not]
  omega

theorem dropWhile_isSpace_of_isDigit {c : Char} (cs : CString) (h : c.isDigit = true) :
    (c :: cs).dropWhile isSpace = c :: cs := by
  rw [List.dropWhile_cons_of_neg (by simp [isSpace_of_isDigit h])]

/-- A number that starts with a digit has no sign. -/
theorem atoi_of_isDigit {c : Char} (cs : CString) (h : c.isDigit = true) :
    atoi (c :: cs) = digits (c :: cs) := by
  unfold atoi
  rw [dropWhile_isSpace_of_isDigit cs h]
  split
  · rename_i heq
    cases heq
    cases h
  · rename_i heq
    cases heq
    cases h
  · rfl

theorem atoi_decimal (n : Int) {rest : CString} (h : ∀ c ∈ rest.head?, c.isDigit = false) :
    atoi (decimal n ++ rest) = n := by
  cases n with
  | ofNat n =>
    simp only [decimal]
    rcases hd : Nat.toDigits 10 n with _ | ⟨c, ds⟩
    · exact absurd hd Nat.toDigits_ne_nil
    · have hc : c.isDigit = true := isDigit_of_mem_toDigits (by rw [hd]; exact List.mem_cons_self)
      rw [List.cons_append, atoi_of_isDigit _ hc, ← List.cons_append, ← hd]
      exact digits_toDigits n h
  | negSucc n =>
    have hspace : isSpace '-' = false := by decide
    unfold decimal atoi
    rw [List.cons_append, List.dropWhile_cons_of_neg (by simp [hspace])]
    simp only [digits_toDigits (n + 1) h]
    rfl

/-- Where `wholeInt` sees a number, `atoi` sees the same. -/
theorem atoi_of_wholeInt {bound : Int} {text : CString} {n : Int}
    (h : wholeInt bound text = some n) : atoi text = n ∧ -bound ≤ n ∧ n < bound := by
  unfold wholeInt at h
  split at h
  rename_i negative ds hparts
  split at h
  · cases h
  · rename_i hdigits
    rw [not_or, not_not] at hdigits
    dsimp only at h
    obtain ⟨hrange, h⟩ := Option.ite_none_right_eq_some.mp h
    cases h
    refine ⟨?_, hrange⟩
    split at hparts
    · cases hparts
      rfl
    · cases hparts
      rfl
    · cases hparts
      cases text with
      | nil => exact absurd rfl hdigits.1
      | cons c cs =>
        have hc : c.isDigit = true := List.all_eq_true.mp hdigits.2 c List.mem_cons_self
        exact atoi_of_isDigit cs hc

/-- Where there is a number, `atoi` sees it. -/
theorem atoi_of_numeral {text : CString} {n : Int} (h : numeral text = some n) : atoi text = n := by
  unfold numeral at h
  split at h
  rename_i negative ds hparts
  split at h
  · cases h
  · rename_i hdigits
    rw [not_or, not_not] at hdigits
    cases h
    split at hparts
    · cases hparts
      rfl
    · cases hparts
      cases text with
      | nil => exact absurd rfl hdigits.1
      | cons c cs =>
        have hc : c.isDigit = true := List.all_eq_true.mp hdigits.2 c List.mem_cons_self
        exact atoi_of_isDigit cs hc

/-- The digits of a number, behind a sign or none. -/
theorem wholeInt_digits {bound : Int} {text : CString} {negative : Bool} {m : Nat}
    (htext : text = (if negative then '-' :: Nat.toDigits 10 m else Nat.toDigits 10 m))
    (h : -bound ≤ (if negative then -(m : Int) else m) ∧
      (if negative then -(m : Int) else m) < bound) :
    wholeInt bound text = some (if negative then -(m : Int) else m) := by
  have hall : ∀ c ∈ Nat.toDigits 10 m, c.isDigit = true := fun c hc => isDigit_of_mem_toDigits hc
  have hread : digits (Nat.toDigits 10 m) = m := by
    have h := @digits_toDigits m [] (by simp)
    rwa [List.append_nil] at h
  have hdigits : ¬ (Nat.toDigits 10 m = [] ∨ ¬ (Nat.toDigits 10 m).all Char.isDigit) := by
    rw [not_or, not_not]
    exact ⟨Nat.toDigits_ne_nil, List.all_eq_true.mpr hall⟩
  subst htext
  unfold wholeInt
  split
  rename_i sign ds hparts
  have hsplit : sign = negative ∧ ds = Nat.toDigits 10 m := by
    cases negative with
    | true =>
      cases hparts
      exact ⟨rfl, rfl⟩
    | false =>
      simp only [Bool.false_eq_true, if_false] at hparts
      split at hparts
      · rename_i heq
        exact absurd (hall '-' (by rw [heq]; exact List.mem_cons_self)) (by decide)
      · rename_i heq
        exact absurd (hall '+' (by rw [heq]; exact List.mem_cons_self)) (by decide)
      · cases hparts
        exact ⟨rfl, rfl⟩
  obtain ⟨rfl, rfl⟩ := hsplit
  rw [if_neg hdigits]
  simp only [hread]
  rw [if_pos h]

/-- What `%d` prints is read back. -/
theorem wholeInt_decimal {bound n : Int} (hlo : -bound ≤ n) (hhi : n < bound) :
    wholeInt bound (decimal n) = some n := by
  cases n with
  | ofNat m => exact @wholeInt_digits _ _ false m rfl ⟨hlo, hhi⟩
  | negSucc m => exact @wholeInt_digits _ _ true (m + 1) rfl ⟨hlo, hhi⟩

theorem toInt32_eq {n : Int} (hlo : -2 ^ 31 ≤ n) (hhi : n < 2 ^ 31) : toInt32 n = n := by
  unfold toInt32
  have hclamp : max (-2 ^ 63) (min (2 ^ 63 - 1) n) = n := by omega
  rw [hclamp]
  exact Int.bmod_eq_of_le (by omega) (by omega)

theorem atoi32_decimal {n : Int} (hlo : -2 ^ 31 ≤ n) (hhi : n < 2 ^ 31) {rest : CString}
    (h : ∀ c ∈ rest.head?, c.isDigit = false) : atoi32 (decimal n ++ rest) = n := by
  rw [atoi32, atoi_decimal n h, toInt32_eq hlo hhi]

/-- No separator is in a number. -/
theorem mem_decimal {n : Int} {c : Char} (h : c ∈ decimal n) : c = '-' ∨ c.isDigit = true := by
  cases n with
  | ofNat n => exact .inr (isDigit_of_mem_toDigits h)
  | negSucc n =>
    rcases List.mem_cons.mp h with rfl | h
    · exact .inl rfl
    · exact .inr (isDigit_of_mem_toDigits h)

theorem colon_not_mem_decimal (n : Int) : ':' ∉ decimal n := by
  intro h
  rcases mem_decimal h with hc | hc <;> cases hc

theorem length_decimal_le {n : Int} {k : Nat} (hk : 0 < k) (hlo : 0 ≤ n) (hhi : n < 10 ^ k) :
    (decimal n).length ≤ k := by
  obtain ⟨m, rfl⟩ := Int.eq_ofNat_of_zero_le hlo
  exact (Nat.length_toDigits_le_iff (by decide) hk).mpr (by exact_mod_cast hhi)

end RigControl.Lib
