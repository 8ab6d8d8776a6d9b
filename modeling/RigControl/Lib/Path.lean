import RigControl.Lib.Lts

/-!
# Runs without an end

A `Path` takes a step after each step. What the steps keep holds all along it
(`Path.invariant_on`), and a state of affairs that lasts until one of certain steps
ends it, ends if such a step always comes (`Path.ends`). A measure that never rises does
not fall again and again (`falls_finitely`). A run to a state that a step leaves as it is
goes on with that step without an end (`lasso_path`).
-/

namespace RigControl.Lib.Lts

variable {σ α : Type} {L : Lts σ α} {s : Nat → σ} {a : Nat → α}

structure Path (L : Lts σ α) (s : Nat → σ) (a : Nat → α) : Prop where
  init : s 0 = L.init
  step : ∀ n, L.step (s n) (a n) = some (s (n + 1))

theorem Path.invariant_on {I : σ → Prop} {C : σ → α → Prop} (h : L.Path s a) (h0 : I L.init)
    (hstep : ∀ s a s', I s → C s a → L.step s a = some s' → I s') (hC : ∀ n, C (s n) (a n))
    (n : Nat) : I (s n) := by
  induction n with
  | zero => exact h.init ▸ h0
  | succ n ih => exact hstep _ _ _ ih (hC n) (h.step n)

theorem Path.invariant {I : σ → Prop} (h : L.Path s a) (h0 : I L.init)
    (hstep : ∀ s a s', I s → L.step s a = some s' → I s') (n : Nat) : I (s n) :=
  h.invariant_on (C := fun _ _ => True) h0 (fun s a s' hs _ => hstep s a s' hs) (fun _ => trivial) n

/-- What a step keeps from some point on. -/
theorem stays {P : Nat → Prop} {k : Nat} (hstep : ∀ n, k ≤ n → P n → P (n + 1)) (hk : P k)
    {m : Nat} (hm : k ≤ m) : P m := by
  obtain ⟨d, rfl⟩ := Nat.exists_eq_add_of_le hm
  clear hm
  induction d with
  | zero => exact hk
  | succ d ih => exact hstep (k + d) (by omega) ih

theorem falls_finitely {μ : Nat → Nat} {O : Nat → Prop} {k : Nat}
    (hle : ∀ m, k ≤ m → μ (m + 1) ≤ μ m) (hlt : ∀ m, k ≤ m → O m → μ (m + 1) < μ m)
    (hfair : ∀ m, k ≤ m → ∃ j, m ≤ j ∧ O j) : False := by
  have hnever : ∀ n m, k ≤ m → μ m ≤ n → False := by
    intro n
    induction n with
    | zero =>
      intro m hm h0
      obtain ⟨j, hj, hO⟩ := hfair m hm
      have hkeep : μ j ≤ 0 := stays (P := fun i => μ i ≤ 0)
        (fun i hi h => Nat.le_trans (hle i (by omega)) h) h0 hj
      have := hlt j (by omega) hO
      omega
    | succ n ih =>
      intro m hm hn
      obtain ⟨j, hj, hO⟩ := hfair m hm
      have hkeep : μ j ≤ n + 1 := stays (P := fun i => μ i ≤ n + 1)
        (fun i hi h => Nat.le_trans (hle i (by omega)) h) hn hj
      have := hlt j (by omega) hO
      exact ih (j + 1) (by omega) (by omega)
  exact hnever (μ k) k (Nat.le_refl k) (Nat.le_refl _)

/-- `P` lasts, unless it turns to `Q`; the steps of `O` turn it; and one of these comes. -/
theorem Path.ends {P Q : σ → Prop} {O : α → Prop} (h : L.Path s a)
    (hstep : ∀ s a s', P s → L.step s a = some s' → Q s' ∨ (P s' ∧ ¬ O a))
    (hfair : ∀ k, P (s k) → ∃ m, k ≤ m ∧ O (a m)) {k : Nat} (hk : P (s k)) :
    ∃ m, k ≤ m ∧ Q (s m) := by
  by_contra hnever
  have hnot : ∀ m, k ≤ m → ¬ Q (s m) := fun m hm hQ => hnever ⟨m, hm, hQ⟩
  have hlasts : ∀ m, k ≤ m → P (s m) := by
    intro m hm
    refine stays (P := fun n => P (s n)) (fun n hn hP => ?_) hk hm
    rcases hstep _ _ _ hP (h.step n) with hQ | ⟨hP', -⟩
    · exact absurd hQ (hnot (n + 1) (by omega))
    · exact hP'
  obtain ⟨m, hm, hown⟩ := hfair k hk
  rcases hstep _ _ _ (hlasts m hm) (h.step m) with hQ | ⟨-, hother⟩
  · exact hnot (m + 1) (by omega) hQ
  · exact hother hown

/-! ## Lassos -/

/-- The states of the run `as`, and then always `t`. -/
def lasso (L : Lts σ α) (as : List α) (t : σ) (n : Nat) : σ := (L.run L.init (as.take n)).getD t

variable {as : List α} {t : σ} {b : α}

theorem lasso_eq (h : L.run L.init as = some t) {n : Nat} (hn : as.length ≤ n) :
    L.lasso as t n = t := by
  rw [lasso, List.take_of_length_le hn, h, Option.getD_some]

theorem lasso_path (h : L.run L.init as = some t) (hstay : L.step t b = some t) :
    L.Path (L.lasso as t) fun n => (as[n]?).getD b where
  init := rfl
  step n := by
    rcases Nat.lt_or_ge n as.length with hn | hn
    · have hsplit : as = as.take n ++ as[n] :: as.drop (n + 1) := by
        rw [← List.drop_eq_getElem_cons hn, List.take_append_drop]
      rw [hsplit] at h
      obtain ⟨u, hu, hrest⟩ := run_append.mp h
      obtain ⟨v, hv, -⟩ := run_cons.mp hrest
      have hnext : L.run L.init (as.take (n + 1)) = some v := by
        rw [List.take_succ_eq_append_getElem hn]
        exact run_append.mpr ⟨u, hu, run_cons.mpr ⟨v, hv, rfl⟩⟩
      simp only [lasso, hu, hnext, Option.getD_some, List.getElem?_eq_getElem hn, hv]
    · rw [lasso_eq h hn, lasso_eq h (Nat.le_succ_of_le hn), List.getElem?_eq_none hn]
      exact hstay

end RigControl.Lib.Lts
