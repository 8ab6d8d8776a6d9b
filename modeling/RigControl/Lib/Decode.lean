import RigControl.Lib.Source

/-!
# Self-delimiting codes over a stream

A `Decoder` reads a state that holds a stream and either returns a value or
stops; `flat` is the stream the state still holds. `Decodes refuse flat m xs b`:
in front of any rest, `m` takes exactly `xs` off the stream and returns `b`,
unless it stops for an outside reason that `refuse` admits, and on a strict prefix
of `xs` it stops. The notion composes over `>>=`, so a decoder that reads field
after field decodes the concatenation of the fields.

`drain` runs a decoder until it stops. On a stream cut anywhere out of a sequence
of encodings it returns the values whose encodings arrived whole
(`drain_arrived`).
-/

namespace RigControl.Lib

variable {σ ω α β γ : Type}

abbrev Decoder (σ ω β : Type) := ExceptT ω (StateM σ) β

/-- Run a decoder: its value or why it stopped, and the state it leaves. -/
def Decoder.exec (m : Decoder σ ω β) (s : σ) : Except ω β × σ := (ExceptT.run m).run s

@[simp] theorem exec_pure (b : β) (s : σ) :
    Decoder.exec (pure b : Decoder σ ω β) s = (.ok b, s) := rfl

@[simp] theorem exec_throw (w : ω) (s : σ) :
    Decoder.exec (throw w : Decoder σ ω β) s = (.error w, s) := rfl

@[simp] theorem exec_get (s : σ) : Decoder.exec (get : Decoder σ ω σ) s = (.ok s, s) := rfl

@[simp] theorem exec_set (t s : σ) : Decoder.exec (set t : Decoder σ ω Unit) s = (.ok (), t) := rfl

@[simp] theorem exec_modify (f : σ → σ) (s : σ) :
    Decoder.exec (modify f : Decoder σ ω Unit) s = (.ok (), f s) := rfl

theorem exec_bind (m : Decoder σ ω β) (k : β → Decoder σ ω γ) (s : σ) :
    Decoder.exec (m >>= k) s =
      match m.exec s with
      | (.ok b, s') => (k b).exec s'
      | (.error w, s') => (.error w, s') := by
  simp only [Decoder.exec, ExceptT.run_bind, StateT.run_bind]
  cases h : StateT.run (ExceptT.run m) s with
  | mk r s' => cases r <;> rfl

theorem exec_bind_ok {m : Decoder σ ω β} {k : β → Decoder σ ω γ} {s s' : σ} {b : β}
    (h : m.exec s = (.ok b, s')) : Decoder.exec (m >>= k) s = (k b).exec s' := by
  rw [exec_bind, h]

theorem exec_bind_eq_ok {m : Decoder σ ω β} {k : β → Decoder σ ω γ} {s s' : σ} {c : γ} :
    Decoder.exec (m >>= k) s = (.ok c, s') ↔
      ∃ b t, m.exec s = (.ok b, t) ∧ (k b).exec t = (.ok c, s') := by
  rw [exec_bind]
  rcases m.exec s with ⟨_ | b, t⟩
  · simp
  · simp

theorem exec_bind_error {m : Decoder σ ω β} {k : β → Decoder σ ω γ} {s s' : σ} {w : ω}
    (h : m.exec s = (.error w, s')) : Decoder.exec (m >>= k) s = (.error w, s') := by
  rw [exec_bind, h]

/-- The decoder stops for an outside reason. -/
def Refused (refuse : ω → Prop) (m : Decoder σ ω β) (s : σ) : Prop :=
  ∃ w s', m.exec s = (.error w, s') ∧ refuse w

/-- `m` decodes `xs` to `b`. -/
structure Decodes (refuse : ω → Prop) (flat : σ → List α) (m : Decoder σ ω β) (xs : List α)
    (b : β) : Prop where
  full : ∀ s rest, flat s = xs ++ rest →
    (∃ s', m.exec s = (.ok b, s') ∧ flat s' = rest) ∨ Refused refuse m s
  cut : ∀ s, flat s <+: xs → flat s ≠ xs → ∃ w s', m.exec s = (.error w, s')

/-- Nothing from outside stops the decoder. -/
def never : ω → Prop := fun _ => False

variable {refuse : ω → Prop} {flat : σ → List α}

theorem Decodes.full_never {m : Decoder σ ω β} {xs : List α} {b : β}
    (hm : Decodes never flat m xs b) {s : σ} {rest : List α} (h : flat s = xs ++ rest) :
    ∃ s', m.exec s = (.ok b, s') ∧ flat s' = rest := by
  rcases hm.full s rest h with h | ⟨_, _, _, h⟩
  · exact h
  · exact h.elim

theorem Decodes.pure (b : β) : Decodes refuse flat (Pure.pure b : Decoder σ ω β) [] b where
  full := fun s _ h => .inl ⟨s, rfl, by simpa using h⟩
  cut := fun _ hp hne => absurd (List.prefix_nil.mp hp) hne

theorem prefix_append_cases {l xs ys : List α} (h : l <+: xs ++ ys) :
    l <+: xs ∨ ∃ t, l = xs ++ t ∧ t <+: ys := by
  rcases Nat.le_total l.length xs.length with hle | hle
  · exact .inl (List.prefix_of_prefix_length_le h (List.prefix_append xs ys) hle)
  · obtain ⟨t, rfl⟩ := List.prefix_of_prefix_length_le (List.prefix_append xs ys) h hle
    exact .inr ⟨t, rfl, (List.prefix_append_right_inj xs).mp h⟩

/-- A strict prefix of `xs ++ ys` is a strict prefix of `xs`, or `xs` followed by
a strict prefix of `ys`. -/
theorem strict_prefix_append {l xs ys : List α} (hp : l <+: xs ++ ys) (hne : l ≠ xs ++ ys) :
    (l <+: xs ∧ l ≠ xs) ∨ ∃ t, l = xs ++ t ∧ t <+: ys ∧ t ≠ ys := by
  rcases prefix_append_cases hp with h | ⟨t, rfl, ht⟩
  · by_cases he : l = xs
    · refine .inr ⟨[], by simpa using he, List.nil_prefix, fun hy => hne ?_⟩
      rw [he, ← hy, List.append_nil]
    · exact .inl ⟨h, he⟩
  · exact .inr ⟨t, rfl, ht, fun hy => hne (by rw [hy])⟩

/-- Decoding one part and then another decodes the concatenation. -/
theorem Decodes.bind {m : Decoder σ ω β} {k : β → Decoder σ ω γ} {xs ys : List α} {b : β} {c : γ}
    (hm : Decodes refuse flat m xs b) (hk : Decodes refuse flat (k b) ys c) :
    Decodes refuse flat (m >>= k) (xs ++ ys) c where
  full := by
    intro s rest h
    rcases hm.full s (ys ++ rest) (by rw [h, List.append_assoc]) with
      ⟨s1, h1, hf1⟩ | ⟨w, s', h1, hw⟩
    · rcases hk.full s1 rest hf1 with ⟨s2, h2, hf2⟩ | ⟨w, s', h2, hw⟩
      · exact .inl ⟨s2, by rw [exec_bind_ok h1, h2], hf2⟩
      · exact .inr ⟨w, s', by rw [exec_bind_ok h1, h2], hw⟩
    · exact .inr ⟨w, s', exec_bind_error h1, hw⟩
  cut := by
    intro s hp hne
    rcases strict_prefix_append hp hne with ⟨hp1, hne1⟩ | ⟨t, ht, hp2, hne2⟩
    · obtain ⟨w, s', h⟩ := hm.cut s hp1 hne1
      exact ⟨w, s', exec_bind_error h⟩
    · rcases hm.full s t ht with ⟨s1, h1, hf1⟩ | ⟨w, s', h1, -⟩
      · obtain ⟨w, s', h⟩ := hk.cut s1 (by rwa [hf1]) (by rwa [hf1])
        exact ⟨w, s', by rw [exec_bind_ok h1, h]⟩
      · exact ⟨w, s', exec_bind_error h1⟩

theorem Decodes.then_pure {m : Decoder σ ω β} {xs : List α} {b : β}
    (hm : Decodes refuse flat m xs b) (f : β → γ) :
    Decodes refuse flat (m >>= fun b => Pure.pure (f b)) xs (f b) := by
  have hf : Decodes refuse flat (Pure.pure (f b) : Decoder σ ω γ) [] (f b) := .pure (f b)
  have h := hm.bind (k := fun b => Pure.pure (f b)) hf
  rwa [List.append_nil] at h

/-! ## Reading a fixed number of items -/

section
variable {ε : Type}

/-- Read `n` items; a read cut short stops the decoder as `stop` says. -/
def readItems (retry : ε → Bool) (stop : Got α ε → ω) (n : Nat) :
    Decoder (Source α ε) ω (List α) :=
  ExceptT.mk fun src =>
    match readExact retry n src with
    | (.all bs, src') => (.ok bs, src')
    | (g, src') => (.error (stop g), src')

theorem readItems_all {retry : ε → Bool} {stop : Got α ε → ω} {n : Nat}
    {src src' : Source α ε} {bs : List α} (h : readExact retry n src = (.all bs, src')) :
    (readItems retry stop n).exec src = (.ok bs, src') := by
  simp only [Decoder.exec, readItems, ExceptT.run_mk, StateT.run, h]

theorem readItems_length {retry : ε → Bool} {stop : Got α ε → ω} {n : Nat}
    {src src' : Source α ε} {bs : List α}
    (h : (readItems retry stop n).exec src = (.ok bs, src')) : bs.length = n := by
  simp only [Decoder.exec, readItems, ExceptT.run_mk, StateT.run] at h
  rcases hr : readExact retry n src with ⟨_ | _ | _, src1⟩ <;> rw [hr] at h <;> cases h
  exact readExact_length hr

theorem readItems_none {retry : ε → Bool} (stop : Got α ε → ω) {n : Nat} {src : Source α ε}
    (h : (readExact retry n src).1.all? = none) :
    ∃ w, (readItems retry stop n).exec src = (.error w, (readExact retry n src).2) := by
  refine ⟨stop (readExact retry n src).1, ?_⟩
  simp only [Decoder.exec, readItems, ExceptT.run_mk, StateT.run]
  rcases hr : readExact retry n src with ⟨_ | _ | _, src'⟩
  · simp [hr, Got.all?] at h
  · rfl
  · rfl

theorem Decodes.readItems (retry : ε → Bool) (stop : Got α ε → ω) {xs : List α} {n : Nat}
    (hn : xs.length = n) :
    Decodes refuse (payload retry) (readItems retry stop n) xs xs where
  full := by
    intro src rest h
    obtain ⟨h1, h2⟩ := readExact_enough retry src (n := n) (by simp [h, ← hn])
    rw [h, ← hn, List.take_left] at h1
    rw [h, ← hn, List.drop_left] at h2
    exact .inl ⟨_, readItems_all (by rw [← h1, hn]), by rw [← hn]; exact h2⟩
  cut := by
    intro src hp hne
    have hl : (payload retry src).length < n := by
      have := hp.length_le
      rcases Nat.lt_or_ge (payload retry src).length n with h | h
      · exact h
      · exact absurd (hp.eq_of_length_le (by omega)) hne
    obtain ⟨w, h⟩ := readItems_none stop (readExact_short retry src hl).1
    exact ⟨w, _, h⟩

/-- At the end of the stream there is nothing to read. -/
theorem readItems_end (retry : ε → Bool) (stop : Got α ε → ω) {n : Nat} (hn : 0 < n)
    {src : Source α ε} (h : payload retry src = []) :
    ∃ w src', (readItems retry stop n).exec src = (.error w, src') ∧ payload retry src' = [] := by
  obtain ⟨h1, h2⟩ := readExact_short retry src (n := n) (by simpa [h] using hn)
  obtain ⟨w, hw⟩ := readItems_none stop h1
  exact ⟨w, _, hw, h2⟩

end

/-! ## A decoder of a part of the state -/

/-- A part of a state that can be read and replaced. -/
structure Part (σ τ : Type) where
  get : σ → τ
  set : τ → σ → σ
  get_set : ∀ t s, get (set t s) = t

/-- Run a decoder on a part of the state. -/
def Decoder.on {τ : Type} (p : Part σ τ) (m : Decoder τ ω β) : Decoder σ ω β :=
  ExceptT.mk fun s =>
    let r := m.exec (p.get s)
    (r.1, p.set r.2 s)

theorem exec_on {τ : Type} (p : Part σ τ) (m : Decoder τ ω β) (s : σ) :
    (Decoder.on p m).exec s = ((m.exec (p.get s)).1, p.set (m.exec (p.get s)).2 s) := rfl

theorem exec_on_fst {τ : Type} {p : Part σ τ} {m : Decoder τ ω β} {s s' : σ} {r : Except ω β}
    (h : (Decoder.on p m).exec s = (r, s')) : m.exec (p.get s) = (r, (m.exec (p.get s)).2) := by
  have h1 : (m.exec (p.get s)).1 = r := congrArg Prod.fst h
  exact Prod.ext h1 rfl

theorem Decodes.on {τ : Type} {flat : τ → List α} (p : Part σ τ) {m : Decoder τ ω β}
    {xs : List α} {b : β} (h : Decodes refuse flat m xs b) :
    Decodes refuse (fun s => flat (p.get s)) (Decoder.on p m) xs b where
  full := by
    intro s rest hs
    rcases h.full (p.get s) rest hs with ⟨t, ht, hf⟩ | ⟨w, t, ht, hw⟩
    · exact .inl ⟨p.set t s, by rw [exec_on, ht], by rw [p.get_set, hf]⟩
    · exact .inr ⟨w, p.set t s, by rw [exec_on, ht], hw⟩
  cut := by
    intro s hp hne
    obtain ⟨w, t, ht⟩ := h.cut (p.get s) hp hne
    exact ⟨w, p.set t s, by rw [exec_on, ht]⟩

/-! ## What every run keeps -/

/-- Whatever the decoder reads and however it ends, it keeps `I`. -/
def Keeps (I : σ → Prop) (m : Decoder σ ω β) : Prop := ∀ s, I s → I (m.exec s).2

section
variable {I : σ → Prop}

theorem Keeps.pure (b : β) : Keeps I (Pure.pure b : Decoder σ ω β) := fun _ h => h

theorem Keeps.throw (w : ω) : Keeps I (MonadExcept.throw w : Decoder σ ω β) := fun _ h => h

theorem Keeps.bind {m : Decoder σ ω β} {k : β → Decoder σ ω γ} (hm : Keeps I m)
    (hk : ∀ b, Keeps I (k b)) : Keeps I (m >>= k) := by
  intro s hs
  have h1 := hm s hs
  rw [exec_bind]
  rcases hr : m.exec s with ⟨_ | b, s'⟩
  · rwa [hr] at h1
  · rw [hr] at h1
    exact hk b s' h1

theorem Keeps.ite {c : Prop} [Decidable c] {m k : Decoder σ ω β} (hm : Keeps I m)
    (hk : Keeps I k) : Keeps I (if c then m else k) := by
  split
  · exact hm
  · exact hk

/-- A decoder of a part keeps what does not look at the part. -/
theorem Keeps.on {τ : Type} (p : Part σ τ) (m : Decoder τ ω β)
    (h : ∀ t s, I s → I (p.set t s)) : Keeps I (Decoder.on p m) :=
  fun s hs => h _ s hs

end

/-! ## Why a decoder can stop -/

/-- Every reason the decoder stops for satisfies `Q`. -/
def Stops (Q : ω → Prop) (m : Decoder σ ω β) : Prop :=
  ∀ s w s', m.exec s = (.error w, s') → Q w

section
variable {Q : ω → Prop}

theorem Stops.pure (b : β) : Stops Q (Pure.pure b : Decoder σ ω β) := by
  intro s w s' h
  simp at h

theorem Stops.throw {w : ω} (hw : Q w) : Stops Q (MonadExcept.throw w : Decoder σ ω β) := by
  intro s w' s' h
  cases h
  exact hw

theorem Stops.bind {m : Decoder σ ω β} {k : β → Decoder σ ω γ} (hm : Stops Q m)
    (hk : ∀ b, Stops Q (k b)) : Stops Q (m >>= k) := by
  intro s w s' h
  rw [exec_bind] at h
  rcases hr : m.exec s with ⟨w1 | b, s1⟩
  · rw [hr] at h
    cases h
    exact hm s _ _ hr
  · rw [hr] at h
    exact hk b s1 w s' h

theorem Stops.ite {c : Prop} [Decidable c] {m k : Decoder σ ω β} (hm : Stops Q m)
    (hk : Stops Q k) : Stops Q (if c then m else k) := by
  split
  · exact hm
  · exact hk

theorem Stops.on {τ : Type} (p : Part σ τ) {m : Decoder τ ω β} (hm : Stops Q m) :
    Stops Q (Decoder.on p m) := by
  intro s w s' h
  exact hm (p.get s) w _ (exec_on_fst h)

theorem Stops.readItems {ε : Type} (retry : ε → Bool) {stop : Got α ε → ω} (n : Nat)
    (h : ∀ g, Q (stop g)) : Stops Q (Lib.readItems retry stop n) := by
  intro s w s' hs
  simp only [Decoder.exec, Lib.readItems, ExceptT.run_mk, StateT.run] at hs
  rcases hr : readExact retry n s with ⟨_ | _ | _, src'⟩ <;> rw [hr] at hs <;> cases hs <;>
    exact h _

end

/-! ## Decoding until it stops -/

/-- Run a decoder at most `fuel` times, until it stops: the values, why it
stopped (`none` when the fuel ran out first) and the state it leaves. -/
def drain (m : Decoder σ ω β) : Nat → σ → List β × Option ω × σ
  | 0, s => ([], none, s)
  | fuel + 1, s =>
    match m.exec s with
    | (.error w, s') => ([], some w, s')
    | (.ok b, s') =>
      let r := drain m fuel s'
      (b :: r.1, r.2)

theorem drain_ok {m : Decoder σ ω β} {s s' : σ} {b : β} (h : m.exec s = (.ok b, s')) (fuel : Nat) :
    drain m (fuel + 1) s = (b :: (drain m fuel s').1, (drain m fuel s').2) := by
  simp only [drain, h]

theorem drain_error {m : Decoder σ ω β} {s s' : σ} {w : ω} (h : m.exec s = (.error w, s'))
    (fuel : Nat) : drain m (fuel + 1) s = ([], some w, s') := by
  simp only [drain, h]

/-- With less fuel a drain returns the first of the values. -/
theorem drain_take {m : Decoder σ ω β} {fuel more : Nat} (hle : fuel ≤ more) (s : σ) :
    (drain m fuel s).1 = (drain m more s).1.take fuel := by
  induction fuel generalizing more s with
  | zero => rfl
  | succ fuel ih =>
    obtain ⟨more, rfl⟩ : ∃ n, more = n + 1 := ⟨more - 1, by omega⟩
    rcases hr : m.exec s with ⟨w | b, s'⟩
    · rw [drain_error hr, drain_error hr, List.take_nil]
    · rw [drain_ok hr, drain_ok hr, List.take_succ_cons, ih (Nat.le_of_succ_le_succ hle)]

/-- The values whose encodings arrived whole, out of a stream `p` that is cut from
the encodings of `bs`. -/
def arrived (enc : β → List α) : List β → List α → List β
  | [], _ => []
  | b :: bs, p =>
    if (enc b).length ≤ p.length then b :: arrived enc bs (p.drop (enc b).length) else []

@[simp] theorem arrived_nil (enc : β → List α) (p : List α) : arrived enc [] p = [] := rfl

/-- Of an uncut stream every value has arrived. -/
theorem arrived_all (enc : β → List α) (bs : List β) : arrived enc bs (bs.flatMap enc) = bs := by
  induction bs with
  | nil => rfl
  | cons b bs ih => simp [arrived, ih]

theorem arrived_length_le {enc : β → List α} {bs : List β} (hne : ∀ b ∈ bs, enc b ≠ [])
    (p : List α) : (arrived enc bs p).length ≤ p.length := by
  induction bs generalizing p with
  | nil => simp
  | cons b bs ih =>
    simp only [arrived]
    split
    · rename_i hl
      have hb : 0 < (enc b).length := List.length_pos_of_ne_nil (hne b List.mem_cons_self)
      have := ih (fun c hc => hne c (List.mem_cons_of_mem b hc)) (p.drop (enc b).length)
      simp only [List.length_drop, List.length_cons] at this ⊢
      omega
    · simp

/-- What has arrived is an initial segment, and its encodings are in the stream. -/
theorem arrived_prefix (enc : β → List α) {bs : List β} {p : List α}
    (hp : p <+: bs.flatMap enc) :
    arrived enc bs p <+: bs ∧ (arrived enc bs p).flatMap enc <+: p := by
  induction bs generalizing p with
  | nil => simp
  | cons b bs ih =>
    simp only [arrived]
    split
    · rename_i hl
      obtain ⟨t, rfl, ht⟩ : ∃ t, p = enc b ++ t ∧ t <+: bs.flatMap enc := by
        rw [List.flatMap_cons] at hp
        rcases prefix_append_cases hp with h | h
        · have he := h.eq_of_length_le hl
          exact ⟨[], by simp [he], List.nil_prefix⟩
        · exact h
      obtain ⟨h1, h2⟩ := ih ht
      simp only [List.drop_left]
      exact ⟨(List.prefix_cons_inj b).mpr h1, by simpa using h2⟩
    · simp

/-- The first value that has not arrived whole has its encoding cut. -/
theorem arrived_next (enc : β → List α) {bs : List β} {p : List α} (hp : p <+: bs.flatMap enc)
    {b : β} {rest : List β} (h : bs = arrived enc bs p ++ b :: rest) :
    p.length < ((arrived enc bs p).flatMap enc).length + (enc b).length := by
  induction bs generalizing p with
  | nil => simp at h
  | cons c bs ih =>
    simp only [arrived] at h ⊢
    split at h
    · rename_i hl
      rw [if_pos hl]
      have hp' : p.drop (enc c).length <+: bs.flatMap enc := by
        have := hp.drop (enc c).length
        simpa using this
      have := ih hp' (by simpa using h)
      simp only [List.length_drop] at this
      simp only [List.flatMap_cons, List.length_append]
      omega
    · rename_i hl
      rw [if_neg hl]
      simp only [List.nil_append, List.cons.injEq] at h
      rw [← h.1]
      simpa using Nat.lt_of_not_le hl

/-- The values that have arrived are the first `k`, for the largest `k` whose
encodings fit in the stream. -/
theorem arrived_eq_take (enc : β → List α) {bs : List β} {p : List α}
    (hp : p <+: bs.flatMap enc) :
    ∃ k ≤ bs.length, arrived enc bs p = bs.take k ∧ (bs.take k).flatMap enc <+: p ∧
      (k < bs.length → p.length < ((bs.take (k + 1)).flatMap enc).length) := by
  obtain ⟨h1, h2⟩ := arrived_prefix enc hp
  have htake := List.prefix_iff_eq_take.mp h1
  refine ⟨(arrived enc bs p).length, h1.length_le, htake, by rwa [← htake], fun hk => ?_⟩
  have hbs : bs = arrived enc bs p ++ bs[(arrived enc bs p).length] ::
      bs.drop ((arrived enc bs p).length + 1) := by
    conv_lhs => rw [← List.take_append_drop (arrived enc bs p).length bs]
    rw [← htake, List.drop_eq_getElem_cons hk]
  have hnext := arrived_next enc hp hbs
  rw [List.take_succ_eq_append_getElem hk, ← htake]
  simpa using hnext

/-- Values whose encodings are all in the stream have arrived. -/
theorem arrived_fits (enc : β → List α) {bs : List β} {p : List α} {k : Nat}
    (h : (bs.take k).flatMap enc <+: p) : bs.take k <+: arrived enc bs p := by
  induction bs generalizing p k with
  | nil => simp
  | cons b bs ih =>
    cases k with
    | zero => exact List.nil_prefix
    | succ k =>
      rw [List.take_succ_cons, List.flatMap_cons] at h
      obtain ⟨t, rfl⟩ := (List.prefix_append (enc b) _).trans h
      rw [List.prefix_append_right_inj] at h
      rw [List.take_succ_cons, arrived, if_pos (by simp), List.drop_left]
      exact (List.prefix_cons_inj b).mpr (ih h)

/-- What every run of a decoder keeps holds when its drain stops, and so between
any two of its runs. -/
theorem Keeps.drain {m : Decoder σ ω β} {I : σ → Prop} (hm : Keeps I m) (fuel : Nat) {s : σ} (hs : I s) : I (Lib.drain m fuel s).2.2 := by
  induction fuel generalizing s with
  | zero => exact hs
  | succ fuel ih =>
    have h := hm s hs
    simp only [Lib.drain]
    rcases hr : m.exec s with ⟨_ | _, s'⟩
    · rwa [hr] at h
    · rw [hr] at h
      exact ih h

theorem Stops.drain {m : Decoder σ ω β} {Q : ω → Prop} (hm : Stops Q m) {fuel : Nat} {s : σ}
    {w : ω} (h : (Lib.drain m fuel s).2.1 = some w) : Q w := by
  induction fuel generalizing s with
  | zero => simp [Lib.drain] at h
  | succ fuel ih =>
    simp only [Lib.drain] at h
    rcases hr : m.exec s with ⟨w1 | b, s1⟩
    · rw [hr] at h
      cases h
      exact hm s _ _ hr
    · rw [hr] at h
      exact ih h

/-- **A drained decoder returns what has arrived.** On a stream cut out of the
encodings of `bs`, with fuel for the values that arrived and the stop, the decoder
returns values that arrived, in order, and stops; when nothing from outside stops
it, it returns all of them, and on the uncut stream nothing is left over. -/
theorem drain_arrived {m : Decoder σ ω γ} {enc : β → List α} {val : β → γ} {bs : List β}
    (hdec : ∀ b ∈ bs, Decodes refuse flat m (enc b) (val b))
    (hend : ∀ s, flat s = [] → ∃ w s', m.exec s = (.error w, s') ∧ flat s' = [])
    {s : σ} (fuel : Nat) (hp : flat s <+: bs.flatMap enc)
    (hf : (arrived enc bs (flat s)).length < fuel) :
    (drain m fuel s).1 <+: (arrived enc bs (flat s)).map val ∧
      ∃ w, (drain m fuel s).2.1 = some w ∧
        (¬ refuse w → (drain m fuel s).1 = (arrived enc bs (flat s)).map val ∧
          (flat s = bs.flatMap enc → flat (drain m fuel s).2.2 = [])) := by
  induction bs generalizing s fuel with
  | nil =>
    obtain ⟨fuel, rfl⟩ : ∃ k, fuel = k + 1 := ⟨fuel - 1, by omega⟩
    obtain ⟨w, s', h, hs'⟩ := hend s (by simpa using hp)
    rw [drain_error h]
    exact ⟨List.nil_prefix, w, rfl, fun _ => ⟨rfl, fun _ => hs'⟩⟩
  | cons b bs ih =>
    obtain ⟨fuel, rfl⟩ : ∃ k, fuel = k + 1 := ⟨fuel - 1, by omega⟩
    rw [List.flatMap_cons] at hp
    rw [List.flatMap_cons]
    simp only [arrived] at hf ⊢
    split
    · rename_i hl
      obtain ⟨t, hst, ht⟩ : ∃ t, flat s = enc b ++ t ∧ t <+: bs.flatMap enc := by
        rcases prefix_append_cases hp with h | h
        · exact ⟨[], by simpa using h.eq_of_length_le hl, List.nil_prefix⟩
        · exact h
      rw [if_pos hl, List.length_cons, hst, List.drop_left] at hf
      rw [hst, List.drop_left, List.map_cons]
      rcases (hdec b List.mem_cons_self).full s t hst with ⟨s', h, hs'⟩ | ⟨w, s', h, hw⟩
      · rw [drain_ok h]
        obtain ⟨h1, w, h2, h3⟩ := ih (fun c hc => hdec c (List.mem_cons_of_mem b hc)) (s := s')
          fuel (by rwa [hs']) (by rw [hs']; omega)
        rw [hs'] at h1 h3
        refine ⟨(List.prefix_cons_inj _).mpr h1, w, h2, fun hw => ?_⟩
        obtain ⟨h4, h5⟩ := h3 hw
        exact ⟨by rw [h4], fun he => h5 (List.append_cancel_left he)⟩
      · rw [drain_error h]
        exact ⟨List.nil_prefix, w, rfl, fun hn => absurd hw hn⟩
    · rename_i hl
      -- the stream ends inside the encoding of `b`
      have hpb : flat s <+: enc b :=
        List.prefix_of_prefix_length_le hp (List.prefix_append _ _) (by omega)
      have hsb : flat s ≠ enc b := fun h => hl (by rw [h])
      obtain ⟨w, s', h⟩ := (hdec b List.mem_cons_self).cut s hpb hsb
      rw [drain_error h]
      refine ⟨List.nil_prefix, w, rfl, fun _ => ⟨rfl, fun he => absurd ?_ hl⟩⟩
      rw [he]
      simp

section

variable {m : Decoder σ ω γ} {enc : β → List α} {val : β → γ} {bs : List β}
  (hdec : ∀ b ∈ bs, Decodes refuse flat m (enc b) (val b))
  (hend : ∀ s, flat s = [] → ∃ w s', m.exec s = (.error w, s') ∧ flat s' = [])
include hdec hend

/-- Whatever has arrived and however long it is read: the values are the first ones. -/
theorem drain_prefix {s : σ} (fuel : Nat) (hp : flat s <+: bs.flatMap enc) :
    (drain m fuel s).1 <+: bs.map val := by
  obtain ⟨h, -⟩ := drain_arrived hdec hend
    (max fuel ((arrived enc bs (flat s)).length + 1)) hp (by omega)
  have harrived := arrived_prefix enc hp
  rw [drain_take (Nat.le_max_left fuel _) s]
  exact (List.take_prefix _ _).trans (h.trans (harrived.1.map val))

/-- The first `k` values are returned if they are in the stream, there is fuel for them, and
nothing from outside stops the decoder. -/
theorem drain_fits {s : σ} {fuel k : Nat} (hp : flat s <+: bs.flatMap enc)
    (hno : Stops (fun w => ¬refuse w) m) (hk : (bs.take k).length ≤ fuel)
    (hfit : (bs.take k).flatMap enc <+: flat s) : (bs.take k).map val <+: (drain m fuel s).1 := by
  obtain ⟨-, w, hw, h⟩ := drain_arrived hdec hend
    (max fuel ((arrived enc bs (flat s)).length + 1)) hp (by omega)
  rw [drain_take (Nat.le_max_left fuel _) s, (h (hno.drain hw)).1, List.prefix_take_iff]
  exact ⟨(arrived_fits enc hfit).map val, by rwa [List.length_map]⟩

end

end RigControl.Lib
