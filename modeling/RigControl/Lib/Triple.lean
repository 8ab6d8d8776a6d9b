import RigControl.Lib.Decode

/-!
# Pre- and postconditions

`Triple P m Q E`: from a state that meets `P`, the program `m` either returns a value
`b` in a state that meets `Q b`, or stops for a reason `w` in a state that meets `E w`.
The programs are those of `Decode`: a state and a way to stop. A program always ends,
so a triple says what it does and not only what it does if it ends; `loop` takes a
measure that its body makes smaller, and its rule is the one with an invariant.
-/

namespace RigControl.Lib

variable {σ ω β γ : Type}

/-- What holds of the end of a program. -/
def Ends (Q : β → σ → Prop) (E : ω → σ → Prop) : Except ω β × σ → Prop
  | (.ok b, s) => Q b s
  | (.error w, s) => E w s

def Triple (P : σ → Prop) (m : Decoder σ ω β) (Q : β → σ → Prop) (E : ω → σ → Prop) : Prop :=
  ∀ s, P s → Ends Q E (m.exec s)

/-- Run a program and go on, however it ends. -/
def attempt (m : Decoder σ ω β) : Decoder σ ω (Except ω β) :=
  ExceptT.mk fun s =>
    let r := m.exec s
    (.ok r.1, r.2)

/-- Run the body until it gives a value; `μ` gets smaller each time it gives none. -/
def loopFrom (body : Decoder σ ω (Option β)) (μ : σ → Nat)
    (hμ : ∀ s s', body.exec s = (.ok none, s') → μ s' < μ s) (s : σ) : Except ω β × σ :=
  match _h : body.exec s with
  | (.ok (some b), s') => (.ok b, s')
  | (.ok none, s') => loopFrom body μ hμ s'
  | (.error w, s') => (.error w, s')
termination_by μ s
decreasing_by exact hμ _ _ _h

def loop (body : Decoder σ ω (Option β)) (μ : σ → Nat)
    (hμ : ∀ s s', body.exec s = (.ok none, s') → μ s' < μ s) : Decoder σ ω β :=
  ExceptT.mk (loopFrom body μ hμ)

variable {P P' : σ → Prop} {Q Q' : β → σ → Prop} {E E' : ω → σ → Prop}

namespace Triple

theorem exec_ok {m : Decoder σ ω β} (h : Triple P m Q E) {s s' : σ} {b : β} (hs : P s)
    (hm : m.exec s = (.ok b, s')) : Q b s' := by
  have hend := h s hs
  rwa [hm] at hend

theorem conseq {m : Decoder σ ω β} (h : Triple P m Q E) (hP : ∀ s, P' s → P s)
    (hQ : ∀ b s, Q b s → Q' b s) (hE : ∀ w s, E w s → E' w s) : Triple P' m Q' E' := by
  intro s hs
  have hend := h s (hP s hs)
  rcases hm : m.exec s with ⟨w | b, s'⟩ <;> rw [hm] at hend
  · exact hE w s' hend
  · exact hQ b s' hend

theorem pre {m : Decoder σ ω β} (h : Triple P m Q E) (hP : ∀ s, P' s → P s) : Triple P' m Q E :=
  h.conseq hP (fun _ _ hq => hq) fun _ _ he => he

theorem post {m : Decoder σ ω β} (h : Triple P m Q E) (hQ : ∀ b s, Q b s → Q' b s) :
    Triple P m Q' E :=
  h.conseq (fun _ hp => hp) hQ fun _ _ he => he

theorem pure {b : β} (h : ∀ s, P s → Q b s) : Triple P (Pure.pure b : Decoder σ ω β) Q E := h

theorem throw {w : ω} (h : ∀ s, P s → E w s) :
    Triple P (MonadExcept.throw w : Decoder σ ω β) Q E := h

theorem modify {f : σ → σ} {Q : Unit → σ → Prop} (h : ∀ s, P s → Q () (f s)) :
    Triple P (modify f : Decoder σ ω Unit) Q E := h

theorem bind {m : Decoder σ ω β} {k : β → Decoder σ ω γ} {R : γ → σ → Prop}
    (hm : Triple P m Q E) (hk : ∀ b, Triple (Q b) (k b) R E) : Triple P (m >>= k) R E := by
  intro s hs
  have hend := hm s hs
  rw [exec_bind]
  rcases hr : m.exec s with ⟨w | b, s'⟩ <;> rw [hr] at hend
  · exact hend
  · exact hk b s' hend

/-- What is read of the state is what the precondition says of it. -/
theorem get_bind {k : σ → Decoder σ ω β} (h : ∀ s, P s → Triple P (k s) Q E) :
    Triple P (get >>= k) Q E := fun s hs => h s hs s hs

/-- The same, when what was read is still the state. -/
theorem get_bind_eq {k : σ → Decoder σ ω β} (h : ∀ s, P s → Triple (· = s) (k s) Q E) :
    Triple P (get >>= k) Q E := fun s hs => h s hs s rfl

/-- Nothing is asked of the end. -/
theorem trivial (m : Decoder σ ω β) : Triple P m (fun _ _ => True) fun _ _ => True := by
  intro s _
  rcases m.exec s with ⟨w | b, s'⟩ <;> exact .intro

theorem ite {c : Prop} [Decidable c] {m k : Decoder σ ω β} (hm : c → Triple P m Q E)
    (hk : ¬c → Triple P k Q E) : Triple P (if c then m else k) Q E := by
  split
  · exact hm ‹_›
  · exact hk ‹_›

/-- A precondition with a part that does not look at the state. -/
theorem of_and {p : Prop} {m : Decoder σ ω β} (h : p → Triple P m Q E) :
    Triple (fun s => p ∧ P s) m Q E := fun s hs => h hs.1 s hs.2

theorem exists_pre {ι : Sort*} {P : ι → σ → Prop} {m : Decoder σ ω β}
    (h : ∀ i, Triple (P i) m Q E) : Triple (fun s => ∃ i, P i s) m Q E :=
  fun s ⟨i, hs⟩ => h i s hs

theorem attempt {m : Decoder σ ω β} (h : Triple P m Q E) :
    Triple P (attempt m) (fun r s => Ends Q E (r, s)) E' := fun s hs => h s hs

/-- The invariant of a loop is what its body keeps each time it gives no value. -/
theorem loop {body : Decoder σ ω (Option β)} {μ : σ → Nat}
    {hμ : ∀ s s', body.exec s = (.ok none, s') → μ s' < μ s}
    (h : Triple P body (fun r s => match r with | some b => Q b s | none => P s) E) :
    Triple P (loop body μ hμ) Q E := by
  have hfrom : ∀ s, P s → Ends Q E (loopFrom body μ hμ s) := by
    intro s
    induction hn : μ s using Nat.strong_induction_on generalizing s with
    | _ n ih =>
      subst hn
      intro hs
      have hend := h s hs
      unfold loopFrom
      split
      · rename_i hb
        rw [hb] at hend
        exact hend
      · rename_i s' hb
        rw [hb] at hend
        exact ih (μ s') (hμ s s' hb) s' rfl hend
      · rename_i hb
        rw [hb] at hend
        exact hend
  exact hfrom

end Triple

end RigControl.Lib
