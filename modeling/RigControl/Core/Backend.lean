import RigControl.Core.Decoder
import RigControl.Core.Deploy
import RigControl.Core.NetThread

/-!
# The backend that is shown

`decoder_desc` is published for the UI when the decoder is created, and again when
`net_thread_fn` puts a software decoder in its place. The decoder can also give up its
hardware within a feed, when `get_format` is called with a list that does not have the
hardware format; nothing is published then.

The loop is the one of `NetThread`, with the decoder as `pick_hw_format` sees it, and what
libavcodec called `get_format` with as part of a turn.
-/

namespace RigControl.Core

open RigControl.Lib

/-- What a feed returns, and the lists `get_format` was called with during it. -/
structure FeedOutcome where
  status : RcStatus
  asked : List (List AvPixelFormat)
  deriving DecidableEq, Repr

/-- One turn of the loop as its environment decides it, as in `NetTurn`. -/
structure BackendTurn where
  running : Bool
  read : Except RcStatus Packet
  runningAfter : Bool
  cfgRoom : Bool
  mergeRoom : Bool
  primeRoom : Bool
  feed : FeedOutcome
  env : DecoderEnv
  prime : FeedOutcome

/-- What the loop reads and writes of the decoder and its description. -/
structure Backend where
  decoder : Option HwState
  decoderDesc : Option String
  cfgLen : Nat
  stopped : Bool
  deriving DecidableEq, Repr

/-- `decoder_desc_of` for a decoder. -/
def HwState.desc (d : HwState) : String := decoderDescOf (rcDecoderHwName (some d))

/-- As `rc_client_start` leaves it. -/
def Backend.start (d : HwState) : Backend :=
  { decoder := some d, decoderDesc := some d.desc, cfgLen := 0, stopped := false }

def Backend.isHw (s : Backend) : Bool := s.decoder.any HwState.isHw

def Backend.feed (s : Backend) (r : FeedOutcome) : Backend :=
  { s with decoder := s.decoder.map (·.getFormats r.asked) }

/-- A hardware decoder has failed. -/
def Backend.replace (s : Backend) (t : BackendTurn) : Backend :=
  match rcDecoderCreate t.env false with
  | none => { s with decoder := none, decoderDesc := none, stopped := true }
  | some d =>
    let s := { s with decoder := some d, decoderDesc := some d.desc }
    if s.cfgLen ≠ 0 ∧ t.primeRoom then s.feed t.prime else s

def Backend.data (s : Backend) (t : BackendTurn) : Backend :=
  let s := s.feed t.feed
  if t.feed.status = .ok then s else if s.isHw then s.replace t else s

def Backend.config (s : Backend) (t : BackendTurn) (p : Packet) : Backend :=
  if t.cfgRoom then { s with cfgLen := p.data.length } else s

def backendTurn (s : Backend) (t : BackendTurn) : Backend :=
  if s.stopped then s
  else if !t.running then { s with stopped := true }
  else
    match t.read with
    | .error _ => { s with stopped := true }
    | .ok p => if p.isConfig then s.config t p else s.data t

def backend (d : HwState) (turns : List BackendTurn) : Backend :=
  turns.foldl backendTurn (.start d)

/-! ## `get_format` -/

@[simp] theorem pickHwFormat_kind (d : HwState) (fmts : List AvPixelFormat) :
    (pickHwFormat d fmts).2.kind = d.kind := by
  unfold pickHwFormat
  split <;> rfl

/-- The list has the hardware format. -/
def HwState.Offered (d : HwState) (fmts : List AvPixelFormat) : Prop :=
  ∃ f ∈ fmts, some f = d.pixFmt

/-- It gives up its hardware, or has already, over a list without the hardware format. -/
theorem pickHwFormat_failed (d : HwState) (fmts : List AvPixelFormat) :
    (pickHwFormat d fmts).2.failed = true ↔ d.failed = true ∨ ¬ d.Offered fmts := by
  have hany : fmts.any (fun f => decide (some f = d.pixFmt)) = true ↔ d.Offered fmts := by
    simp [HwState.Offered, List.any_eq_true]
  unfold pickHwFormat
  split
  · rename_i h
    rw [Bool.and_eq_true, hany, Bool.not_eq_true'] at h
    simp [h.1, h.2]
  · rename_i h
    rw [Bool.and_eq_true, hany, Bool.not_eq_true'] at h
    cases hf : d.failed with
    | true => simp
    | false => simpa [hf] using h

/-- A decoder keeps its backend, and loses the use of it over a list that does not have the
hardware format. -/
theorem foldl_pickHwFormat (asked : List (List AvPixelFormat)) (d : HwState) :
    (asked.foldl (fun d fmts => (pickHwFormat d fmts).2) d).kind = d.kind ∧
      ((asked.foldl (fun d fmts => (pickHwFormat d fmts).2) d).failed = true ↔
        d.failed = true ∨ ∃ fmts ∈ asked, ¬ d.Offered fmts) := by
  induction asked generalizing d with
  | nil => simp
  | cons fmts asked ih =>
    obtain ⟨hkind, hfailed⟩ := ih (pickHwFormat d fmts).2
    have hsame (l : List AvPixelFormat) : (pickHwFormat d fmts).2.Offered l ↔ d.Offered l := by
      simp [HwState.Offered, HwState.pixFmt]
    rw [List.foldl_cons]
    refine ⟨by rw [hkind, pickHwFormat_kind], ?_⟩
    rw [hfailed, pickHwFormat_failed]
    simp only [hsame, List.mem_cons, exists_eq_or_imp, or_assoc]

@[simp] theorem getFormats_kind (d : HwState) (asked : List (List AvPixelFormat)) :
    (d.getFormats asked).kind = d.kind := by
  unfold HwState.getFormats
  split
  · exact (foldl_pickHwFormat asked d).1
  · rfl

theorem getFormats_failed (d : HwState) (asked : List (List AvPixelFormat)) :
    (d.getFormats asked).failed = true ↔
      d.failed = true ∨ d.kind.isSome = true ∧ ∃ fmts ∈ asked, ¬ d.Offered fmts := by
  unfold HwState.getFormats
  split
  · rename_i hk
    simpa [hk] using (foldl_pickHwFormat asked d).2
  · rename_i hk
    simp [hk]

theorem rcDecoderCreate_software (env : DecoderEnv) :
    rcDecoderCreate env false = if env.opens then some .software else none := rfl

/-! ## What is shown -/

/-- A hardware decoder is not shown as one that has given up. -/
theorem desc_eq_iff (d : HwState) (failed : Bool) :
    HwState.desc { d with failed } = d.desc ↔ d.kind = none ∨ d.failed = failed := by
  obtain ⟨kind, f⟩ := d
  cases kind with
  | none => simp [HwState.desc, rcDecoderHwName]
  | some k => cases k <;> cases f <;> cases failed <;> decide

/-- `get_format` leaves the description right exactly if the hardware it takes away was not
in use. -/
theorem getFormats_desc_iff (d : HwState) (asked : List (List AvPixelFormat)) :
    (d.getFormats asked).desc = d.desc ↔ (d.isHw = true → ∀ fmts ∈ asked, d.Offered fmts) := by
  have hshape : d.getFormats asked = { d with failed := (d.getFormats asked).failed } := by
    rw [← getFormats_kind d asked]
  have hfailed := getFormats_failed d asked
  rw [hshape, desc_eq_iff]
  cases hk : d.kind with
  | none => simp [HwState.isHw, hk]
  | some k =>
    cases hf : d.failed with
    | true =>
      have h : (d.getFormats asked).failed = true := hfailed.mpr (.inl hf)
      simp [HwState.isHw, hf, h]
    | false =>
      simp only [hk, hf, Bool.false_eq_true, false_or, Option.isSome_some, true_and] at hfailed
      simp only [HwState.isHw, hk, hf, Option.isSome_some, Bool.not_false, Bool.and_self, reduceCtorEq,
        false_or, forall_const]
      rw [eq_comm, ← Bool.not_eq_true, hfailed]
      simp

namespace Backend

/-- The description is that of the decoder there is. -/
def Right (s : Backend) : Prop := s.decoderDesc = s.decoder.map HwState.desc

/-- The turn feeds a packet to the decoder. -/
def Feeds (s : Backend) (t : BackendTurn) : Prop :=
  s.stopped = false ∧ t.running = true ∧ ∃ p, t.read = .ok p ∧ p.isConfig = false

/-- As long as its hardware is in use, `get_format` always offers the format of it. -/
def Offers (s : Backend) (t : BackendTurn) : Prop :=
  s.Feeds t → ∀ d, s.decoder = some d → d.isHw = true → ∀ fmts ∈ t.feed.asked, d.Offered fmts

variable {s : Backend}

theorem right_feed_iff (h : s.Right) (r : FeedOutcome) :
    (s.feed r).Right ↔ ∀ d, s.decoder = some d → d.isHw = true → ∀ fmts ∈ r.asked, d.Offered fmts := by
  unfold Right at h
  unfold Right feed
  rw [h]
  cases s.decoder with
  | none => simp
  | some d =>
    rw [Option.map_some, Option.map_some, Option.map_some, Option.some_inj, eq_comm,
      getFormats_desc_iff]
    simp

/-- What replaces a decoder is shown. -/
theorem right_replace (t : BackendTurn) : (s.replace t).Right := by
  unfold replace
  rw [rcDecoderCreate_software]
  cases t.env.opens with
  | false => rfl
  | true =>
    simp only [if_true]
    split
    · rfl
    · rfl

theorem right_data_iff (h : s.Right) (t : BackendTurn) : (s.data t).Right ↔
    ∀ d, s.decoder = some d → d.isHw = true → ∀ fmts ∈ t.feed.asked, d.Offered fmts := by
  have hfeed := right_feed_iff h t.feed
  unfold data
  dsimp only
  split
  · exact hfeed
  · split
    · rename_i hhw
      refine ⟨?_, fun _ => right_replace t⟩
      -- its hardware is still in use behind the feed
      intro _ d hd hin
      unfold isHw feed at hhw
      rw [hd] at hhw
      simp only [Option.map_some, Option.any_some, HwState.isHw, getFormats_kind, Bool.and_eq_true,
        Bool.not_eq_true'] at hhw
      have hfailed := getFormats_failed d t.feed.asked
      rw [hhw.2] at hfailed
      simpa [hhw.1] using (not_or.mp (mt hfailed.mpr (by simp))).2
    · exact hfeed

theorem right_turn_iff (h : s.Right) (t : BackendTurn) :
    (backendTurn s t).Right ↔ s.Offers t := by
  unfold backendTurn Offers Feeds
  cases hs : s.stopped with
  | true => simpa using h
  | false =>
    cases hr : t.running with
    | false => simpa [Right] using h
    | true =>
      cases hread : t.read with
      | error r => simpa [Right] using h
      | ok p =>
        cases hp : p.isConfig with
        | true =>
          have hcfg : (s.config t p).Right := by
            unfold config
            split <;> exact h
          simpa [hp] using hcfg
        | false => simpa [hp] using right_data_iff h t

end Backend

open Backend

theorem backend_snoc (d : HwState) {turns : List BackendTurn} {n : Nat} {t : BackendTurn}
    (h : turns[n]? = some t) :
    backend d (turns.take (n + 1)) = backendTurn (backend d (turns.take n)) t := by
  unfold backend
  rw [List.take_add_one, h, Option.toList_some, List.foldl_append]
  rfl

/-- **After each packet of a run the backend that is shown is the one decoding exactly if
`get_format` was never called, while a hardware decoder was in use, with a list without
its format.** -/
theorem decoder_desc_iff (d : HwState) (turns : List BackendTurn) :
    (∀ n ≤ turns.length, (backend d (turns.take n)).Right) ↔
      ∀ n t, turns[n]? = some t → (backend d (turns.take n)).Offers t := by
  refine ⟨?_, ?_⟩
  · intro h n t ht
    obtain ⟨hn, -⟩ := List.getElem?_eq_some_iff.mp ht
    have hstep := right_turn_iff (h n (Nat.le_of_lt hn)) t
    rw [← backend_snoc d ht] at hstep
    exact hstep.mp (h (n + 1) hn)
  · intro h n
    induction n with
    | zero => exact fun _ => rfl
    | succ n ih =>
      intro hn
      have ht := List.getElem?_eq_getElem hn
      rw [backend_snoc d ht]
      exact (right_turn_iff (ih (Nat.le_of_lt hn)) _).mpr (h n _ ht)

/-- The first packet of a stream the GPU cannot decode: the software decoder takes over
within the feed, and the GPU is still shown. -/
theorem decoder_desc_stale : ¬ ∀ (d : HwState) (turns : List BackendTurn),
    ∀ n ≤ turns.length, (backend d (turns.take n)).Right := by
  intro h
  have hright := h ⟨some .cuda, false⟩
    [{ running := true, read := .ok demoData, runningAfter := true, cfgRoom := true,
       mergeRoom := true, primeRoom := true, feed := ⟨.ok, [[.yuv420p]]⟩,
       env := ⟨false, none, fun _ _ => false, true⟩, prime := ⟨.ok, []⟩ }] 1 (by decide)
  revert hright
  unfold Right
  decide

/-! ## It is the video loop -/

def HwState.toRc (d : HwState) : RcDecoder := ⟨d.kind.isSome, d.failed⟩

/-- A turn of the loop, as `NetThread` has it: of `get_format`, that the hardware was
given up. -/
def BackendTurn.toNet (t : BackendTurn) (s : Backend) : NetTurn where
  running := t.running
  read := t.read
  runningAfter := t.runningAfter
  cfgRoom := t.cfgRoom
  mergeRoom := t.mergeRoom
  primeRoom := t.primeRoom
  feed := ⟨t.feed.status, s.decoder.any fun d => (d.getFormats t.feed.asked).failed⟩
  create := t.env.opens
  prime := ⟨t.prime.status, false⟩

structure Backend.Sees (s : Backend) (net : NetThread) : Prop where
  decoder : net.decoder = s.decoder.map HwState.toRc
  cfg : net.cfgBuf.length = s.cfgLen
  stopped : net.stopped = s.stopped

theorem isHw_toRc (d : Option HwState) :
    rcDecoderIsHw (d.map HwState.toRc) = d.any HwState.isHw := by
  cases d <;> rfl

theorem afterFeed_toRc (d : Option HwState) (r : FeedOutcome) :
    afterFeed (d.map HwState.toRc) ⟨r.status, d.any fun d => (d.getFormats r.asked).failed⟩ =
      (d.map (·.getFormats r.asked)).map HwState.toRc := by
  cases d with
  | none => rfl
  | some d =>
    have hmono : d.failed = true → (d.getFormats r.asked).failed = true := fun h =>
      (getFormats_failed d r.asked).mpr (.inl h)
    simp only [afterFeed, Option.map_some, Option.any_some, HwState.toRc, getFormats_kind]
    cases hf : d.failed with
    | true => simp [hmono hf]
    | false => simp

theorem Backend.Sees.replace {s : Backend} {net : NetThread} (h : s.Sees net) (t : BackendTurn)
    (before : Backend) (p : Packet) (fed : NetEvent) :
    (s.replace t).Sees (net.replace (t.toNet before) p fed) := by
  have hcreate : (t.toNet before).create = t.env.opens := rfl
  have hroom : (t.toNet before).primeRoom = t.primeRoom := rfl
  unfold NetThread.replace Backend.replace
  rw [rcDecoderCreate_software, hcreate, hroom, h.cfg]
  cases t.env.opens with
  | false => exact ⟨rfl, h.cfg, rfl⟩
  | true =>
    simp only [if_true]
    split
    · exact ⟨rfl, h.cfg, h.stopped⟩
    · exact ⟨rfl, h.cfg, h.stopped⟩

theorem Backend.Sees.data {s : Backend} {net : NetThread} (h : s.Sees net) (t : BackendTurn)
    (p : Packet) : (s.data t).Sees (net.data (t.toNet s) p) := by
  have hd : afterFeed net.decoder (t.toNet s).feed = (s.feed t.feed).decoder.map HwState.toRc := by
    rw [h.decoder]
    exact afterFeed_toRc s.decoder t.feed
  have hhw : rcDecoderIsHw (afterFeed net.decoder (t.toNet s).feed) = (s.feed t.feed).isHw := by
    rw [hd, isHw_toRc]
    rfl
  unfold NetThread.data Backend.data
  dsimp only
  rw [hhw]
  by_cases hok : t.feed.status = .ok
  · have hok' : (t.toNet s).feed.status = .ok := hok
    rw [if_pos hok, if_pos hok']
    exact ⟨hd, h.cfg, h.stopped⟩
  · have hok' : ¬ (t.toNet s).feed.status = .ok := hok
    rw [if_neg hok, if_neg hok']
    cases (s.feed t.feed).isHw with
    | true =>
      have hseen : (s.feed t.feed).Sees
          { net with needCfg := false, decoder := afterFeed net.decoder (t.toNet s).feed } :=
        ⟨hd, h.cfg, h.stopped⟩
      exact hseen.replace t s p _
    | false =>
      simp only [Bool.false_eq_true, if_false]
      split
      · exact ⟨hd, h.cfg, h.stopped⟩
      · exact ⟨hd, h.cfg, h.stopped⟩

/-- A turn of one is a turn of the other. -/
theorem Backend.Sees.turn {s : Backend} {net : NetThread} (h : s.Sees net) (t : BackendTurn) :
    (backendTurn s t).Sees (netTurn net (t.toNet s)) := by
  have hread : (t.toNet s).read = t.read := rfl
  have hrunning : (t.toNet s).running = t.running := rfl
  unfold backendTurn netTurn
  rw [hread, hrunning, h.stopped]
  cases hs : s.stopped with
  | true =>
    simp only [if_true]
    exact h
  | false =>
    cases t.running with
    | false => exact ⟨h.decoder, h.cfg, rfl⟩
    | true =>
      cases t.read with
      | error r => exact ⟨h.decoder, h.cfg, rfl⟩
      | ok p =>
        cases hp : p.isConfig with
        | false => simpa [hp] using h.data t p
        | true =>
          simp only [Bool.false_eq_true, Bool.not_true, if_false, hp, if_true]
          have hroom : (t.toNet s).cfgRoom = t.cfgRoom := rfl
          unfold NetThread.config Backend.config
          rw [hroom]
          split
          · exact ⟨h.decoder, rfl, h.stopped⟩
          · exact ⟨h.decoder, h.cfg, h.stopped⟩

/-- The turns of a run, as `NetThread` has them. -/
def netTurns : Backend → List BackendTurn → List NetTurn
  | _, [] => []
  | s, t :: turns => t.toNet s :: netTurns (backendTurn s t) turns

/-- A run is a run of the video loop. -/
theorem backend_netThread (d : HwState) (turns : List BackendTurn) :
    (backend d turns).Sees (netThread d.toRc (netTurns (.start d) turns)) := by
  have hrun : ∀ (turns : List BackendTurn) (s : Backend) (net : NetThread), s.Sees net →
      (turns.foldl backendTurn s).Sees ((netTurns s turns).foldl netTurn net) := by
    intro turns
    induction turns with
    | nil => exact fun _ _ h => h
    | cons t turns ih => exact fun s net h => ih _ _ (h.turn t)
  exact hrun turns _ _ ⟨rfl, rfl, rfl⟩

/-! ## `rc_decoder_feed` is a feed -/

section

variable {σ : Type} (codec : Codec σ)

theorem getFormats_append (d : HwState) (asked more : List (List AvPixelFormat)) :
    (d.getFormats asked).getFormats more = d.getFormats (asked ++ more) := by
  have hkind := getFormats_kind d asked
  unfold HwState.getFormats at hkind ⊢
  rw [hkind, List.foldl_append]
  split
  · rfl
  · rfl

theorem download_hw (d : RcAvDecoder σ) (f : AvFrame) : (d.download codec f).2.hw = d.hw := by
  unfold RcAvDecoder.download
  split
  · split
    · rfl
    · split
      · rename_i h
        exact congrArg (fun r => RcAvDecoder.hw r.2) h.symm
      · rfl
  · rfl

theorem drain_hw {recvMs : Int64} {n : Nat} {d d' : RcAvDecoder σ} {frames out : List RcFrame}
    {status : RcStatus} (h : d.drain codec recvMs n frames = some (status, out, d')) :
    ∃ asked, d'.hw = d.hw.getFormats asked := by
  induction n generalizing d frames with
  | zero => cases h
  | succ n ih =>
    unfold RcAvDecoder.drain at h
    dsimp only at h
    split at h
    · cases h
      exact ⟨_, rfl⟩
    · cases h
      exact ⟨_, rfl⟩
    · cases h
      exact ⟨_, rfl⟩
    · rename_i f _
      have hhw := download_hw codec (d.after (codec.receive d.hw d.ctx)) f
      split at h
      · rename_i hdl
        rw [hdl] at hhw
        cases h
        exact ⟨_, hhw⟩
      · rename_i o d1 hdl
        rw [hdl] at hhw
        split at h
        · cases h
          exact ⟨_, hhw⟩
        · obtain ⟨asked, hasked⟩ := ih h
          refine ⟨(codec.receive d.hw d.ctx).asked ++ asked, ?_⟩
          rw [hasked, hhw, ← getFormats_append]
          rfl

/-- A call is a feed of the loop: a status, and calls of `get_format`. -/
theorem rcDecoderFeed_outcome {calls : Nat} {d : RcAvDecoder σ} {c : FeedCall} {r : Fed σ}
    (h : rcDecoderFeed codec calls d c = some r) :
    ∃ o : FeedOutcome, o.status = r.status ∧ r.decoder.hw = d.hw.getFormats o.asked := by
  have hdrained {x} (hx : (d.after (codec.send d.hw c.packet d.ctx)).drain codec c.recvMs calls [] = some x) :
      ∃ o : FeedOutcome, o.status = x.1 ∧ x.2.2.hw = d.hw.getFormats o.asked := by
    obtain ⟨asked, hasked⟩ := drain_hw codec hx
    refine ⟨⟨x.1, (codec.send d.hw c.packet d.ctx).asked ++ asked⟩, rfl, ?_⟩
    rw [hasked, ← getFormats_append]
    rfl
  unfold rcDecoderFeed at h
  split at h
  · cases h
    refine ⟨⟨.errInvalidArg, []⟩, rfl, ?_⟩
    unfold HwState.getFormats
    split <;> rfl
  · dsimp only at h
    split at h
    · cases h
      exact ⟨⟨.errDecode, _⟩, rfl, rfl⟩
    all_goals
      obtain ⟨x, hx, rfl⟩ := Option.map_eq_some_iff.mp h
      exact hdrained hx

end

end RigControl.Core
