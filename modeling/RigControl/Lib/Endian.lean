import Mathlib.Data.Nat.Bitwise

/-!
# Big-endian words

Words cut into bytes by right shifts and put together again by left shifts and
`or`, most significant byte first. `joinNN` of the cut bytes is the word
(`joinNN_cut`). The lemmas go through the value of a joined word: no two of the
shifted bytes overlap, so the `or` is a sum.
-/

namespace RigControl.Lib

variable {α : Type}

def bytes16 (v : UInt16) : List UInt8 := [(v >>> 8).toUInt8, v.toUInt8]

def bytes32 (v : UInt32) : List UInt8 :=
  [(v >>> 24).toUInt8, (v >>> 16).toUInt8, (v >>> 8).toUInt8, v.toUInt8]

def bytes64 (v : UInt64) : List UInt8 :=
  [(v >>> 56).toUInt8, (v >>> 48).toUInt8, (v >>> 40).toUInt8, (v >>> 32).toUInt8,
    (v >>> 24).toUInt8, (v >>> 16).toUInt8, (v >>> 8).toUInt8, v.toUInt8]

@[simp] theorem length_bytes32 (v : UInt32) : (bytes32 v).length = 4 := rfl

/-- Overwrite a buffer from offset `p` on. -/
def patch (b : List α) (p : Nat) (bs : List α) : List α :=
  b.take p ++ bs ++ b.drop (p + bs.length)

/-- Overwriting the middle of a buffer leaves its two ends. -/
theorem patch_mid (xs ys zs : List α) {b : List α} {p : Nat} (hp : p = xs.length)
    (hl : b.length = ys.length) : patch (xs ++ ys ++ zs) p b = xs ++ b ++ zs := by
  subst hp
  simp [patch, hl, List.append_assoc]

theorem length_patch {b bs : List α} {p : Nat} (h : p + bs.length ≤ b.length) :
    (patch b p bs).length = b.length := by
  simp only [patch, List.length_append, List.length_take, List.length_drop]
  omega

/-- The word of two bytes. -/
def join16 (a b : UInt8) : UInt16 := (a.toUInt16 <<< 8) ||| b.toUInt16

/-- The word of four bytes. -/
def join32 (a b c d : UInt8) : UInt32 :=
  (a.toUInt32 <<< 24) ||| (b.toUInt32 <<< 16) ||| (c.toUInt32 <<< 8) ||| d.toUInt32

/-- The double word of two words. -/
def join64 (hi lo : UInt32) : UInt64 := (hi.toUInt64 <<< 32) ||| lo.toUInt64

/-- The word at offset `p` of a buffer. -/
def word16 (b : List UInt8) (p : Nat) : UInt16 := join16 (b.getD p 0) (b.getD (p + 1) 0)

def word32 (b : List UInt8) (p : Nat) : UInt32 :=
  join32 (b.getD p 0) (b.getD (p + 1) 0) (b.getD (p + 2) 0) (b.getD (p + 3) 0)

def word64 (b : List UInt8) (p : Nat) : UInt64 := join64 (word32 b p) (word32 b (p + 4))

theorem or_eq_add {a b n : Nat} (hb : b < 2 ^ n) : a * 2 ^ n ||| b = a * 2 ^ n + b := by
  rw [← Nat.shiftLeft_eq, Nat.shiftLeft_add_eq_or_of_lt hb]

theorem join16_toNat (a b : UInt8) : (join16 a b).toNat = a.toNat * 2 ^ 8 + b.toNat := by
  have ha := a.toNat_lt
  have hb := b.toNat_lt
  have h : a.toNat * 2 ^ 8 % 2 ^ 16 = a.toNat * 2 ^ 8 := Nat.mod_eq_of_lt (by omega)
  simp only [join16, UInt16.toNat_or, UInt16.toNat_shiftLeft, UInt8.toNat_toUInt16,
    Nat.shiftLeft_eq]
  rw [show UInt16.toNat 8 % 16 = 8 from rfl, h, or_eq_add hb]

theorem join32_toNat (a b c d : UInt8) : (join32 a b c d).toNat =
    a.toNat * 2 ^ 24 + b.toNat * 2 ^ 16 + c.toNat * 2 ^ 8 + d.toNat := by
  have ha := a.toNat_lt
  have hb := b.toNat_lt
  have hc := c.toNat_lt
  have hd := d.toNat_lt
  have h1 : a.toNat * 2 ^ 24 % 2 ^ 32 = a.toNat * 2 ^ 24 := Nat.mod_eq_of_lt (by omega)
  have h2 : b.toNat * 2 ^ 16 % 2 ^ 32 = b.toNat * 2 ^ 16 := Nat.mod_eq_of_lt (by omega)
  have h3 : c.toNat * 2 ^ 8 % 2 ^ 32 = c.toNat * 2 ^ 8 := Nat.mod_eq_of_lt (by omega)
  simp only [join32, UInt32.toNat_or, UInt32.toNat_shiftLeft, UInt8.toNat_toUInt32,
    Nat.shiftLeft_eq]
  rw [show UInt32.toNat 24 % 32 = 24 from rfl, show UInt32.toNat 16 % 32 = 16 from rfl,
    show UInt32.toNat 8 % 32 = 8 from rfl, h1, h2, h3, Nat.or_assoc, Nat.or_assoc,
    or_eq_add hd, or_eq_add (a := b.toNat) (by omega), or_eq_add (a := a.toNat) (by omega)]
  omega

theorem join64_toNat (hi lo : UInt32) : (join64 hi lo).toNat = hi.toNat * 2 ^ 32 + lo.toNat := by
  have hh := hi.toNat_lt
  have hl := lo.toNat_lt
  have h : hi.toNat * 2 ^ 32 % 2 ^ 64 = hi.toNat * 2 ^ 32 := Nat.mod_eq_of_lt (by omega)
  simp only [join64, UInt64.toNat_or, UInt64.toNat_shiftLeft, UInt32.toNat_toUInt64,
    Nat.shiftLeft_eq]
  rw [show UInt64.toNat 32 % 64 = 32 from rfl, h, or_eq_add hl]

/-! ## Cutting and joining -/

@[simp] theorem join16_cut (v : UInt16) : join16 (v >>> 8).toUInt8 v.toUInt8 = v := by
  apply UInt16.toNat_inj.mp
  have := v.toNat_lt
  rw [join16_toNat]
  simp [Nat.shiftRight_eq_div_pow]
  omega

@[simp] theorem join32_cut (v : UInt32) :
    join32 (v >>> 24).toUInt8 (v >>> 16).toUInt8 (v >>> 8).toUInt8 v.toUInt8 = v := by
  apply UInt32.toNat_inj.mp
  have := v.toNat_lt
  rw [join32_toNat]
  simp [Nat.shiftRight_eq_div_pow]
  omega

theorem join32_low (v : UInt64) :
    join32 (v >>> 24).toUInt8 (v >>> 16).toUInt8 (v >>> 8).toUInt8 v.toUInt8 = v.toUInt32 := by
  apply UInt32.toNat_inj.mp
  rw [join32_toNat]
  simp [Nat.shiftRight_eq_div_pow]
  omega

theorem join64_halves (v : UInt64) : join64 (v >>> 32).toUInt32 v.toUInt32 = v := by
  apply UInt64.toNat_inj.mp
  have := v.toNat_lt
  rw [join64_toNat]
  simp [Nat.shiftRight_eq_div_pow]
  omega

/-- A double word cut into eight bytes, joined word by word. -/
@[simp] theorem join64_cut (v : UInt64) :
    join64 (join32 (v >>> 56).toUInt8 (v >>> 48).toUInt8 (v >>> 40).toUInt8 (v >>> 32).toUInt8)
      (join32 (v >>> 24).toUInt8 (v >>> 16).toUInt8 (v >>> 8).toUInt8 v.toUInt8) = v := by
  have h56 : v >>> 56 = (v >>> 32) >>> 24 :=
    UInt64.toNat_inj.mp (by simp [← Nat.shiftRight_add])
  have h48 : v >>> 48 = (v >>> 32) >>> 16 :=
    UInt64.toNat_inj.mp (by simp [← Nat.shiftRight_add])
  have h40 : v >>> 40 = (v >>> 32) >>> 8 :=
    UInt64.toNat_inj.mp (by simp [← Nat.shiftRight_add])
  rw [h56, h48, h40, join32_low, join32_low, join64_halves]

theorem getD_append_at (xs ys : List α) (i : Nat) (d : α) :
    (xs ++ ys).getD (xs.length + i) d = ys.getD i d := by
  rw [List.getD_eq_getElem?_getD, List.getD_eq_getElem?_getD,
    List.getElem?_append_right (by omega), Nat.add_sub_cancel_left]

/-- A word is read where it was written. -/
theorem word16_append (xs ys : List UInt8) (v : UInt16) :
    word16 (xs ++ (bytes16 v ++ ys)) xs.length = v := by
  have h0 := getD_append_at xs (bytes16 v ++ ys) 0 0
  rw [Nat.add_zero] at h0
  simp only [word16, getD_append_at, h0]
  exact join16_cut v

theorem word32_append (xs ys : List UInt8) (v : UInt32) :
    word32 (xs ++ (bytes32 v ++ ys)) xs.length = v := by
  have h0 := getD_append_at xs (bytes32 v ++ ys) 0 0
  rw [Nat.add_zero] at h0
  simp only [word32, getD_append_at, h0]
  exact join32_cut v

theorem word64_append (xs ys : List UInt8) (v : UInt64) :
    word64 (xs ++ (bytes64 v ++ ys)) xs.length = v := by
  have h0 := getD_append_at xs (bytes64 v ++ ys) 0 0
  rw [Nat.add_zero] at h0
  simp only [word64, word32, getD_append_at, h0, Nat.add_assoc]
  exact join64_cut v

end RigControl.Lib
