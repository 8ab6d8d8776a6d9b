import Mathlib.Data.List.Basic

/-!
# Labelled transition systems

An `Lts` has an initial state and a partial step function: a label says which
party moves and what its environment answers, and `none` is a label that cannot
happen in the state. A run is a list of labels, so an interleaving is a list too
and a statement about every run is a statement about every schedule.

`Lts.invariant` is the induction over a run; `Lts.invariant_on` is the same
induction along the runs whose steps all meet a condition `C`; `Lts.length_le` bounds a
run along which a measure falls, `Lts.leads_to` is one to its end. A `Refinement` maps
one system to a more abstract one, step by step or to no step at all, and its runs
to runs (`Refinement.run`).
-/

namespace RigControl.Lib

structure Lts (σ α : Type) where
  init : σ
  step : σ → α → Option σ

namespace Lts

variable {σ α : Type} (L : Lts σ α)

def run (s : σ) : List α → Option σ
  | [] => some s
  | a :: as => (L.step s a).bind fun s' => run s' as

/-- Every step of the run `as` from `s` meets `C` in the state it starts in. -/
def Meets (C : σ → α → Prop) (s : σ) : List α → Prop
  | [] => True
  | a :: as => C s a ∧ ∀ s' ∈ L.step s a, Meets C s' as

instance decidableMeets (C : σ → α → Prop) [∀ s a, Decidable (C s a)] :
    ∀ (s : σ) (as : List α), Decidable (L.Meets C s as)
  | _, [] => isTrue trivial
  | s, a :: as =>
    have := fun s' => decidableMeets C s' as
    inferInstanceAs (Decidable (C s a ∧ ∀ s' ∈ L.step s a, L.Meets C s' as))

def Reachable (s : σ) : Prop := ∃ as, L.run L.init as = some s

variable {L}

theorem run_cons {s s' : σ} {a : α} {as : List α} :
    L.run s (a :: as) = some s' ↔ ∃ t, L.step s a = some t ∧ L.run t as = some s' := by
  simp only [run, Option.bind_eq_some_iff]

theorem run_append {s s' : σ} {as bs : List α} :
    L.run s (as ++ bs) = some s' ↔ ∃ t, L.run s as = some t ∧ L.run t bs = some s' := by
  induction as generalizing s with
  | nil => simp [run]
  | cons a as ih =>
    rw [List.cons_append, run_cons]
    constructor
    · rintro ⟨t, ht, h⟩
      obtain ⟨u, hu, h⟩ := ih.mp h
      exact ⟨u, run_cons.mpr ⟨t, ht, hu⟩, h⟩
    · rintro ⟨u, hu, h⟩
      obtain ⟨t, ht, hu⟩ := run_cons.mp hu
      exact ⟨t, ht, ih.mpr ⟨u, hu, h⟩⟩

/-- What every step keeps under `C` holds at the end of a run whose steps all
meet `C`. -/
theorem invariant_on {C : σ → α → Prop} {I : σ → Prop}
    (hstep : ∀ s a s', I s → C s a → L.step s a = some s' → I s')
    {s s' : σ} {as : List α} (hs : I s) (hC : L.Meets C s as) (h : L.run s as = some s') :
    I s' := by
  induction as generalizing s with
  | nil =>
    obtain rfl : s = s' := by simpa [run] using h
    exact hs
  | cons a as ih =>
    obtain ⟨t, ht, h⟩ := run_cons.mp h
    exact ih (hstep s a t hs hC.1 ht) (hC.2 t ht) h

theorem meets_true (s : σ) (as : List α) : L.Meets (fun _ _ => True) s as := by
  induction as generalizing s with
  | nil => trivial
  | cons a as ih => exact ⟨trivial, fun s' _ => ih s'⟩

/-- A condition on the labels alone. -/
theorem meets_of_forall {P : α → Prop} (s : σ) {as : List α} (h : ∀ a ∈ as, P a) :
    L.Meets (fun _ a => P a) s as := by
  induction as generalizing s with
  | nil => trivial
  | cons a as ih =>
    exact ⟨h a List.mem_cons_self, fun s' _ => ih s' fun b hb => h b (List.mem_cons_of_mem _ hb)⟩

/-- What every step keeps holds at the end of every run. -/
theorem invariant {I : σ → Prop} (hstep : ∀ s a s', I s → L.step s a = some s' → I s')
    {s s' : σ} {as : List α} (hs : I s) (h : L.run s as = some s') : I s' :=
  invariant_on (C := fun _ _ => True) (fun s a s' hs _ => hstep s a s' hs) hs (meets_true s as) h

theorem Reachable.invariant {I : σ → Prop} (h0 : I L.init)
    (hstep : ∀ s a s', I s → L.step s a = some s' → I s') {s : σ} (h : L.Reachable s) : I s :=
  let ⟨_, h⟩ := h
  Lts.invariant hstep h0 h

theorem Meets.and {C D : σ → α → Prop} {s : σ} {as : List α} (hC : L.Meets C s as)
    (hD : L.Meets D s as) : L.Meets (fun s a => C s a ∧ D s a) s as := by
  induction as generalizing s with
  | nil => trivial
  | cons a as ih => exact ⟨⟨hC.1, hD.1⟩, fun s' hs' => ih (hC.2 s' hs') (hD.2 s' hs')⟩

/-- A run that meets `C` meets `D` if `C` gives `D` wherever `I` holds, and keeps `I`. -/
theorem Meets.imp_of_invariant {C D : σ → α → Prop} {I : σ → Prop}
    (hCD : ∀ s a, I s → C s a → D s a)
    (hstep : ∀ s a s', I s → C s a → L.step s a = some s' → I s') {s : σ} (hs : I s)
    {as : List α} (h : L.Meets C s as) : L.Meets D s as := by
  induction as generalizing s with
  | nil => trivial
  | cons a as ih =>
    exact ⟨hCD s a hs h.1, fun s' hs' => ih (hstep s a s' hs h.1 hs') (h.2 s' hs')⟩

theorem Meets.append {C : σ → α → Prop} {s : σ} {as bs : List α} (h : L.Meets C s (as ++ bs)) :
    L.Meets C s as ∧ ∀ t, L.run s as = some t → L.Meets C t bs := by
  induction as generalizing s with
  | nil => exact ⟨trivial, fun t ht => Option.some.inj ht ▸ h⟩
  | cons a as ih =>
    refine ⟨⟨h.1, fun s' hs' => (ih (h.2 s' hs')).1⟩, fun t ht => ?_⟩
    obtain ⟨u, hu, ht⟩ := run_cons.mp ht
    exact (ih (h.2 u hu)).2 t ht

/-- The system without the steps that do not meet `C`. -/
def only (L : Lts σ α) (C : σ → α → Prop) [∀ s a, Decidable (C s a)] : Lts σ α :=
  { init := L.init, step := fun s a => if C s a then L.step s a else none }

theorem run_only {C : σ → α → Prop} [∀ s a, Decidable (C s a)] {s s' : σ} {as : List α}
    (hC : L.Meets C s as) (h : L.run s as = some s') : (L.only C).run s as = some s' := by
  induction as generalizing s with
  | nil => exact h
  | cons a as ih =>
    obtain ⟨t, ht, h⟩ := run_cons.mp h
    exact run_cons.mpr ⟨t, (if_pos hC.1).trans ht, ih (hC.2 t ht) h⟩

/-- Where every step under `C` makes the measure smaller, a run takes no more steps than
the measure falls. -/
theorem length_le {C : σ → α → Prop} (μ : σ → Nat)
    (hstep : ∀ s a s', C s a → L.step s a = some s' → μ s' < μ s) {s s' : σ} {as : List α}
    (hC : L.Meets C s as) (h : L.run s as = some s') : as.length + μ s' ≤ μ s := by
  induction as generalizing s with
  | nil =>
    obtain rfl : s = s' := by simpa [run] using h
    exact Nat.le_of_eq (Nat.zero_add (μ s))
  | cons a as ih =>
    obtain ⟨t, ht, h⟩ := run_cons.mp h
    have hfirst := hstep s a t hC.1 ht
    have hrest := ih (hC.2 t ht) h
    rw [List.length_cons]
    omega

/-- Where there is always a step of `P` that makes the measure smaller, such steps lead
to `Q`, and no more of them than the measure says. -/
theorem leads_to {I Q : σ → Prop} {P : α → Prop} (μ : σ → Nat)
    (hstep : ∀ s, I s → ¬ Q s → ∃ a s', P a ∧ L.step s a = some s' ∧ I s' ∧ μ s' < μ s)
    {s : σ} (hs : I s) :
    ∃ as s', L.run s as = some s' ∧ I s' ∧ Q s' ∧ (∀ a ∈ as, P a) ∧ as.length ≤ μ s := by
  induction hn : μ s using Nat.strongRecOn generalizing s with
  | ind n ih =>
    by_cases hQ : Q s
    · exact ⟨[], s, rfl, hs, hQ, nofun, Nat.zero_le _⟩
    · obtain ⟨a, t, ha, ht, hI, hlt⟩ := hstep s hs hQ
      obtain ⟨as, s', hrun, hI', hQ', has, hlen⟩ := ih (μ t) (hn ▸ hlt) hI rfl
      refine ⟨a :: as, s', run_cons.mpr ⟨t, ht, hrun⟩, hI', hQ', ?_, ?_⟩
      · exact List.forall_mem_cons.mpr ⟨ha, has⟩
      · rw [List.length_cons]
        omega

end Lts

/-- A map of states, and of steps in their states, to a more abstract system; a step
that maps to none leaves the abstract state as it is. -/
structure Refinement {σ α τ β : Type} (L : Lts σ α) (M : Lts τ β) where
  abs : σ → τ
  move : σ → α → Option β
  init : abs L.init = M.init
  quiet : ∀ s a s', L.step s a = some s' → move s a = none → abs s' = abs s
  step : ∀ s a s' b, L.step s a = some s' → move s a = some b → M.step (abs s) b = some (abs s')

namespace Refinement

variable {σ α τ β : Type} {L : Lts σ α} {M : Lts τ β}

/-- A run maps to a run of the abstract system, and conditions on its steps carry
over. -/
theorem run (R : Refinement L M) {C : σ → α → Prop} {D : τ → β → Prop}
    (hCD : ∀ s a b, C s a → R.move s a = some b → D (R.abs s) b) {s s' : σ} {as : List α}
    (hC : L.Meets C s as) (h : L.run s as = some s') :
    ∃ bs, M.run (R.abs s) bs = some (R.abs s') ∧ M.Meets D (R.abs s) bs := by
  induction as generalizing s with
  | nil =>
    obtain rfl : s = s' := by simpa [Lts.run] using h
    exact ⟨[], rfl, trivial⟩
  | cons a as ih =>
    obtain ⟨t, ht, h⟩ := Lts.run_cons.mp h
    obtain ⟨bs, hrun, hmeets⟩ := ih (hC.2 t ht) h
    cases hm : R.move s a with
    | none =>
      rw [R.quiet s a t ht hm] at hrun hmeets
      exact ⟨bs, hrun, hmeets⟩
    | some b =>
      have hstep := R.step s a t b ht hm
      refine ⟨b :: bs, Lts.run_cons.mpr ⟨_, hstep, hrun⟩, hCD s a b hC.1 hm, ?_⟩
      intro u hu
      obtain rfl : R.abs t = u := Option.some.inj (hstep.symm.trans hu)
      exact hmeets

end Refinement

end RigControl.Lib
