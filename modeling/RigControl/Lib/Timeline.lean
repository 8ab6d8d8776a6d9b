import Mathlib.Data.List.Basic

/-!
# A stream over time

What a peer does on a connection, each thing with the time since the one before; after
the last it does nothing more. `outcome` is what a reader can know when its time is
up: what has come, and whether the peer has closed. A reader that polls until a
deadline returns a function of that (`pollToEof_eq`), however the stream was cut.
-/

namespace RigControl.Lib

inductive Happening (α : Type) where
  | bytes (bs : List α)
  /-- A signal ends the wait and nothing else. -/
  | interrupt
  | close
  | reset
  deriving DecidableEq, Repr

abbrev Timeline (α : Type) := List (Nat × Happening α)

inductive Ending where
  | closed | reset
  /-- Still open when the time is up. -/
  | late
  deriving DecidableEq, Repr

/-- What a loop over `poll` and `read` returns, by what has happened when it stops. -/
structure Returns (α ρ : Type) where
  /-- No time is left. -/
  late : List α → ρ
  reset : List α → ρ
  closed : List α → ρ

variable {α ρ : Type}

def outcome : Nat → Timeline α → List α × Ending
  | _, [] => ([], .late)
  | limit, (wait, e) :: rest =>
    if limit ≤ wait then ([], .late)
    else
      match e with
      | .bytes bs =>
        let (more, ending) := outcome (limit - wait) rest
        (bs ++ more, ending)
      | .interrupt => outcome (limit - wait) rest
      | .close => ([], .closed)
      | .reset => ([], .reset)

/-- All that comes, in time or not. -/
def sent : Timeline α → List α
  | [] => []
  | (_, .bytes bs) :: rest => bs ++ sent rest
  | (_, .interrupt) :: rest => sent rest
  | (_, .close) :: _ => []
  | (_, .reset) :: _ => []

/-- In time comes a part of it, and all if the peer closes in time. -/
theorem outcome_sent (limit : Nat) (tl : Timeline α) : (outcome limit tl).1 <+: sent tl ∧
    ((outcome limit tl).2 = .closed → (outcome limit tl).1 = sent tl) := by
  induction tl generalizing limit with
  | nil => simp [outcome, sent]
  | cons x rest ih =>
    obtain ⟨wait, e⟩ := x
    unfold outcome
    by_cases hlate : limit ≤ wait
    · rw [if_pos hlate]
      exact ⟨List.nil_prefix, fun h => by cases h⟩
    · rw [if_neg hlate]
      cases e with
      | bytes bs =>
        obtain ⟨hpart, hall⟩ := ih (limit - wait)
        exact ⟨(List.prefix_append_right_inj bs).mpr hpart,
          fun h => congrArg (bs ++ ·) (hall h)⟩
      | interrupt => exact ih (limit - wait)
      | close => simp [sent]
      | reset => simp [sent]

/-- Read until the peer closes, for at most `limit`; `take` adds what one arrival
brings to what is there, `full` says that the loop has enough. -/
def pollToEof (full : List α → Bool) (take : List α → List α → List α) (ret : Returns α ρ)
    (limit : Nat) (got : List α) : Timeline α → ρ
  | [] => if full got then ret.closed got else ret.late got
  | (wait, e) :: rest =>
    if full got then ret.closed got
    else if limit ≤ wait then ret.late got
    else
      match e with
      | .bytes bs => pollToEof full take ret (limit - wait) (take got bs) rest
      | .interrupt => pollToEof full take ret (limit - wait) got rest
      | .close => ret.closed got
      | .reset => ret.reset got

def Returns.result (ret : Returns α ρ) (got : List α) : Ending → ρ
  | .closed => ret.closed got
  | .reset => ret.reset got
  | .late => ret.late got

/-- A reader with room for all that comes sees the outcome. -/
theorem pollToEof_eq {full : List α → Bool} {take : List α → List α → List α}
    {ret : Returns α ρ} {cap : Nat} (hfull : ∀ got, got.length < cap → full got = false)
    (htake : ∀ got bs, got.length + bs.length < cap → take got bs = got ++ bs) (tl : Timeline α)
    (limit : Nat) (got : List α) (h : got.length + (outcome limit tl).1.length < cap) :
    pollToEof full take ret limit got tl =
      ret.result (got ++ (outcome limit tl).1) (outcome limit tl).2 := by
  induction tl generalizing limit got with
  | nil =>
    have hroom : full got = false := hfull got (by omega)
    simp [pollToEof, outcome, hroom, Returns.result]
  | cons x rest ih =>
    obtain ⟨wait, e⟩ := x
    have hroom : full got = false := hfull got (by omega)
    unfold outcome at h
    unfold pollToEof outcome
    by_cases hlate : limit ≤ wait
    · simp [hroom, hlate, Returns.result]
    · simp only [hroom, hlate, if_false, Bool.false_eq_true] at h ⊢
      cases e with
      | bytes bs =>
        simp only [List.length_append] at h ⊢
        rw [htake got bs (by omega), ih _ _ (by simp only [List.length_append]; omega)]
        simp only [List.append_assoc]
      | interrupt => exact ih _ _ h
      | close => simp [Returns.result]
      | reset => simp [Returns.result]

end RigControl.Lib
