import Mathlib.Data.List.Basic
import Mathlib.Data.List.Infix

/-!
# Blocking reads and writes over a byte stream

A `Source` is what a blocking descriptor delivers: the items as they arrive, cut
anywhere, with faults in between; its end is the end of the stream. `readExact`
is the loop that reads until it has `n` items, retrying the faults `retry`
accepts, and `writeAll` the loop that writes until nothing is left. `payload` is
the stream without its cuts: what `readExact` returns depends on nothing else
(`readExact_enough`, `readExact_short`).
-/

namespace RigControl.Lib

/-- One arrival on a descriptor: items, or a fault the read call reports. -/
inductive Arrival (α ε : Type) where
  | data (bs : List α)
  | fault (e : ε)
  deriving DecidableEq, Repr

abbrev Source (α ε : Type) := List (Arrival α ε)

/-- How a loop that wants a fixed number of items ends; a loop cut short keeps
what it has. -/
inductive Got (α ε : Type) where
  | all (bs : List α)
  | eof (bs : List α)
  | fault (e : ε) (bs : List α)
  deriving DecidableEq, Repr

variable {α ε : Type}

def Got.prepend (bs : List α) : Got α ε → Got α ε
  | .all cs => .all (bs ++ cs)
  | .eof cs => .eof (bs ++ cs)
  | .fault e cs => .fault e (bs ++ cs)

/-- The items of a complete read. -/
def Got.all? : Got α ε → Option (List α)
  | .all bs => some bs
  | _ => none

@[simp] theorem Got.all?_prepend (bs : List α) (g : Got α ε) :
    (g.prepend bs).all? = g.all?.map (bs ++ ·) := by
  cases g <;> rfl

/-- Read until `n` items are there. One read returns what has arrived, at most
what is still missing; the rest of the arrival stays for the next read, and so
does a fault that is not retried. -/
def readExact (retry : ε → Bool) : Nat → Source α ε → Got α ε × Source α ε
  | 0, src => (.all [], src)
  | _ + 1, [] => (.eof [], [])
  | n + 1, .fault e :: src =>
    if retry e then readExact retry (n + 1) src else (.fault e [], .fault e :: src)
  | n + 1, .data bs :: src =>
    if n + 1 ≤ bs.length then (.all (bs.take (n + 1)), .data (bs.drop (n + 1)) :: src)
    else
      let r := readExact retry (n + 1 - bs.length) src
      (r.1.prepend bs, r.2)

/-- The items of a source, up to its first fault that is not retried. -/
def payload (retry : ε → Bool) : Source α ε → List α
  | [] => []
  | .fault e :: src => if retry e then payload retry src else []
  | .data bs :: src => bs ++ payload retry src

variable {retry : ε → Bool}

@[simp] theorem readExact_zero (src : Source α ε) : readExact retry 0 src = (.all [], src) := by
  cases src <;> rfl

theorem readExact_fault {n : Nat} (e : ε) (src : Source α ε) (hn : 0 < n) :
    readExact retry n (.fault e :: src) =
      if retry e then readExact retry n src else (.fault e [], .fault e :: src) := by
  obtain ⟨n, rfl⟩ : ∃ m, n = m + 1 := ⟨n - 1, by omega⟩
  rfl

theorem readExact_data {n : Nat} (bs : List α) (src : Source α ε) (hn : 0 < n) :
    readExact retry n (.data bs :: src) =
      if n ≤ bs.length then (.all (bs.take n), .data (bs.drop n) :: src)
      else ((readExact retry (n - bs.length) src).1.prepend bs,
        (readExact retry (n - bs.length) src).2) := by
  obtain ⟨n, rfl⟩ : ∃ m, n = m + 1 := ⟨n - 1, by omega⟩
  rfl

/-- With enough items ahead a read takes them in order and leaves the rest,
however they arrive. -/
theorem readExact_enough (retry : ε → Bool) (src : Source α ε) : ∀ {n : Nat}, n ≤ (payload retry src).length →
    (readExact retry n src).1 = .all ((payload retry src).take n) ∧
      payload retry (readExact retry n src).2 = (payload retry src).drop n := by
  induction src with
  | nil =>
    intro n h
    obtain rfl : n = 0 := by simpa [payload] using h
    simp [payload]
  | cons a src ih =>
    intro n h
    rcases Nat.eq_zero_or_pos n with rfl | hn
    · simp
    cases a with
    | fault e =>
      rw [readExact_fault e src hn]
      by_cases hr : retry e
      · simp only [payload, hr, ↓reduceIte] at h ⊢
        exact ih h
      · simp only [payload, hr, Bool.false_eq_true, ↓reduceIte, List.length_nil] at h
        omega
    | data bs =>
      rw [readExact_data bs src hn]
      simp only [payload, List.length_append] at h ⊢
      by_cases hl : n ≤ bs.length
      · simp [hl, payload, List.take_append_of_le_length, List.drop_append_of_le_length]
      · obtain ⟨h1, h2⟩ := ih (n := n - bs.length) (by omega)
        simp only [hl, ↓reduceIte, h1, Got.prepend, h2]
        have hle : bs.length ≤ n := by omega
        rw [List.take_append, List.drop_append, List.take_of_length_le hle,
          List.drop_of_length_le hle, List.nil_append]
        exact ⟨rfl, rfl⟩

/-- With too few items ahead a read does not complete, and leaves none. -/
theorem readExact_short (retry : ε → Bool) (src : Source α ε) : ∀ {n : Nat}, (payload retry src).length < n →
    (readExact retry n src).1.all? = none ∧ payload retry (readExact retry n src).2 = [] := by
  induction src with
  | nil =>
    intro n h
    obtain ⟨n, rfl⟩ : ∃ m, n = m + 1 := ⟨n - 1, by omega⟩
    exact ⟨rfl, rfl⟩
  | cons a src ih =>
    intro n h
    have hn : 0 < n := by omega
    cases a with
    | fault e =>
      rw [readExact_fault e src hn]
      by_cases hr : retry e
      · simp only [payload, hr, ↓reduceIte] at h ⊢
        exact ih h
      · simp [hr, Got.all?, payload]
    | data bs =>
      simp only [payload, List.length_append] at h
      rw [readExact_data bs src hn, if_neg (by omega)]
      obtain ⟨h1, h2⟩ := ih (n := n - bs.length) (by omega)
      exact ⟨by simp [h1], h2⟩

/-- A complete read has the items it was asked for. -/
theorem readExact_length {src src' : Source α ε} {n : Nat} {bs : List α}
    (h : readExact retry n src = (.all bs, src')) : bs.length = n := by
  induction src generalizing n bs with
  | nil =>
    rcases Nat.eq_zero_or_pos n with rfl | hn
    · rw [readExact_zero] at h
      cases h
      rfl
    · obtain ⟨n, rfl⟩ : ∃ m, n = m + 1 := ⟨n - 1, by omega⟩
      cases h
  | cons a src ih =>
    rcases Nat.eq_zero_or_pos n with rfl | hn
    · rw [readExact_zero] at h
      cases h
      rfl
    cases a with
    | fault e =>
      rw [readExact_fault e src hn] at h
      split at h
      · exact ih h
      · cases h
    | data cs =>
      rw [readExact_data cs src hn] at h
      split at h
      · cases h
        rw [List.length_take]
        omega
      · rcases hr : readExact retry (n - cs.length) src with ⟨_ | _ | _, src1⟩ <;> rw [hr] at h <;>
          cases h
        rw [List.length_append, ih hr]
        omega

/-! ## Writes -/

/-- What one write call reports: how many items it took, or a fault. -/
inductive WriteRet (ε : Type) where
  | wrote (n : Nat)
  | fault (e : ε)
  deriving DecidableEq, Repr

/-- How a loop that writes everything ends: `blocked` is a loop whose next write
call has not returned. -/
inductive Wrote where
  | done | failed | blocked
  deriving DecidableEq, Repr

/-- Write until nothing is left; the items written and how the loop ended. -/
def writeAll (retry : ε → Bool) : List α → List (WriteRet ε) → List α × Wrote
  | [], _ => ([], .done)
  | _ :: _, [] => ([], .blocked)
  | b :: bs, .fault e :: rs => if retry e then writeAll retry (b :: bs) rs else ([], .failed)
  | b :: bs, .wrote n :: rs =>
    let r := writeAll retry ((b :: bs).drop n) rs
    ((b :: bs).take n ++ r.1, r.2)

/-- A write loop writes a prefix of its buffer. -/
theorem writeAll_prefix (retry : ε → Bool) (buf : List α) (rs : List (WriteRet ε)) :
    (writeAll retry buf rs).1 <+: buf := by
  induction rs generalizing buf with
  | nil => cases buf <;> simp [writeAll]
  | cons r rs ih =>
    cases buf with
    | nil => simp [writeAll]
    | cons b bs =>
      cases r with
      | fault e =>
        simp only [writeAll]
        split
        · exact ih _
        · simp
      | wrote n =>
        simp only [writeAll]
        have h := List.prefix_append_right_inj ((b :: bs).take n) |>.mpr (ih ((b :: bs).drop n))
        rwa [List.take_append_drop] at h

/-- A write loop that ends well has written its whole buffer. -/
theorem writeAll_done (retry : ε → Bool) {buf : List α} {rs : List (WriteRet ε)}
    (h : (writeAll retry buf rs).2 = .done) : (writeAll retry buf rs).1 = buf := by
  induction rs generalizing buf with
  | nil => cases buf <;> simp_all [writeAll]
  | cons r rs ih =>
    cases buf with
    | nil => rfl
    | cons b bs =>
      cases r with
      | fault e =>
        simp only [writeAll] at h ⊢
        split at h
        · rename_i hr
          simp only [hr, ↓reduceIte]
          exact ih h
        · cases h
      | wrote n =>
        simp only [writeAll] at h ⊢
        rw [ih h, List.take_append_drop]

end RigControl.Lib
