import RigControl.Core.Demuxer
import RigControl.Lib.History

/-!
# The video loop

`net_thread_fn` of `client.c`. A config packet is not fed on its own: it is kept,
and goes in front of the next packet. When feeding fails in a hardware decoder the
loop goes over to a software one and primes it with the config it has kept and the
packet at hand; other failures are reported once until a feed works again.

FFmpeg is outside the model: what a feed returns, and whether it makes the decoder
give up its hardware, is part of a turn's environment, as is every allocation. The
log keeps, for each packet read, what the loop did with it.
-/

namespace RigControl.Core

open RigControl.Lib

/-- `rc_decoder`, as far as `rc_decoder_is_hw` looks at it. -/
structure RcDecoder where
  hwCtx : Bool
  hwFailed : Bool
  deriving DecidableEq, Repr

/-- `rc_decoder_is_hw`; no decoder is `NULL`. -/
def rcDecoderIsHw : Option RcDecoder → Bool
  | some d => d.hwCtx && !d.hwFailed
  | none => false

/-- What `rc_decoder_feed` returns, and whether `pick_hw_format` fell back to
software during the call. -/
structure FeedResult where
  status : RcStatus
  hwFailed : Bool
  deriving DecidableEq, Repr

/-- Once a decoder has given up its hardware it does not take it back. -/
def afterFeed (d : Option RcDecoder) (r : FeedResult) : Option RcDecoder :=
  d.map fun d => { d with hwFailed := d.hwFailed || r.hwFailed }

/-- `rc_decoder_create(codec, 0)`. -/
def RcDecoder.software : RcDecoder := { hwCtx := false, hwFailed := false }

inductive NetEvent where
  /-- `rc_decoder_feed`, and `rc_decoder_is_hw` after it. -/
  | feed (data : List UInt8) (ptsUs : Int64) (status : RcStatus) (hw : Bool)
  | emit (code : RcStatus) (msg : String)
  | destroy
  | create (allowHw ok : Bool)
  deriving DecidableEq, Repr

/-- What the loop did with a packet. -/
structure Entry where
  packet : Packet
  events : List NetEvent
  deriving DecidableEq, Repr

/-- One turn of the loop as its environment decides it: the flag `running`, the
packet, whether the three buffers can grow, the decoder. -/
structure NetTurn where
  running : Bool
  read : Except RcStatus Packet
  runningAfter : Bool
  cfgRoom : Bool
  mergeRoom : Bool
  primeRoom : Bool
  feed : FeedResult
  create : Bool
  prime : FeedResult

structure NetThread where
  decoder : Option RcDecoder
  cfgBuf : List UInt8
  needCfg : Bool
  errEmitted : Bool
  stopped : Bool
  log : List Entry
  ending : List NetEvent
  deriving DecidableEq, Repr

def NetThread.start (d : RcDecoder) : NetThread :=
  { decoder := some d, cfgBuf := [], needCfg := true, errEmitted := false, stopped := false, log := [],
    ending := [] }

def NetThread.note (s : NetThread) (p : Packet) (events : List NetEvent) : NetThread :=
  { s with log := s.log ++ [⟨p, events⟩] }

def hwMsg : String := "hardware decode lỗi — chuyển sang CPU (software)"
def softMsg : String := "lỗi giải mã (chờ keyframe kế tiếp)"
def noDecoderMsg : String := "không dựng lại được decoder"
def endMsg : String := "luồng video kết thúc"

/-- The failed feed of a hardware decoder: a software decoder takes its place, primed
with the config and the packet at hand, or the loop ends. -/
def NetThread.replace (s : NetThread) (t : NetTurn) (p : Packet) (fed : NetEvent) : NetThread :=
  let events : List NetEvent := [fed, .emit t.feed.status hwMsg, .destroy, .create false t.create]
  if t.create then
    if s.cfgBuf.length ≠ 0 ∧ t.primeRoom then
      let d := afterFeed (some .software) t.prime
      { s with decoder := d }.note p
        (events ++ [NetEvent.feed (s.cfgBuf ++ p.data) p.ptsUs t.prime.status (rcDecoderIsHw d)])
    else
      { s with decoder := some .software }.note p events
  else
    { s with decoder := none, stopped := true }.note p (events ++ [NetEvent.emit .errDecode noDecoderMsg])

/-- What the loop does with a packet that is not config. -/
def NetThread.data (s : NetThread) (t : NetTurn) (p : Packet) : NetThread :=
  let merged := s.needCfg && s.cfgBuf.length ≠ 0 && t.mergeRoom
  let fdata := if merged then s.cfgBuf ++ p.data else p.data
  let d := afterFeed s.decoder t.feed
  let s := { s with needCfg := false, decoder := d }
  let fed : NetEvent := .feed fdata p.ptsUs t.feed.status (rcDecoderIsHw d)
  if t.feed.status = .ok then
    { s with errEmitted := false }.note p [fed]
  else if rcDecoderIsHw d then
    s.replace t p fed
  else if s.errEmitted then
    s.note p [fed]
  else
    { s with errEmitted := true }.note p [fed, .emit t.feed.status softMsg]

def NetThread.config (s : NetThread) (t : NetTurn) (p : Packet) : NetThread :=
  (if t.cfgRoom then { s with cfgBuf := p.data, needCfg := true } else s).note p []

def netTurn (s : NetThread) (t : NetTurn) : NetThread :=
  if s.stopped then s
  else if !t.running then { s with stopped := true }
  else
    match t.read with
    | .error r =>
      { s with stopped := true, ending := if t.runningAfter then [.emit r endMsg] else [] }
    | .ok p => if p.isConfig then s.config t p else s.data t p

def netThread (d : RcDecoder) (turns : List NetTurn) : NetThread :=
  turns.foldl netTurn (.start d)

/-! ## What the loop should do with a packet -/

/-- The most recent config. -/
def lastConfig (before : List Packet) : Option (List UInt8) :=
  (before.filter (·.isConfig)).getLast?.map (·.data)

/-- What is fed for a packet: behind config packets, the last of them goes first. -/
def fedAs (before : List Packet) (p : Packet) : List UInt8 :=
  match before.getLast? with
  | some q => if q.isConfig then q.data ++ p.data else p.data
  | none => p.data

/-- Of a feed, whether it failed in a software decoder. -/
def NetEvent.softFailed : NetEvent → Option Bool
  | .feed _ _ status hw => some (status ≠ .ok && !hw)
  | _ => none

/-- The same of the feed of an entry's packet. -/
def Entry.softFailed (e : Entry) : Option Bool := e.events.head?.bind NetEvent.softFailed

/-- The last packet that was fed failed in a software decoder. -/
def softBefore (before : List Entry) : Bool :=
  (before.filterMap Entry.softFailed).getLast?.getD false

/-- The loop created a decoder for this packet. -/
def Entry.replaced (e : Entry) : Bool :=
  e.events.any fun ev => ev matches .create _ _

/-- The loop was left without a decoder. -/
def Entry.orphaned (e : Entry) : Bool :=
  e.events.any fun ev => ev matches .create _ false

/-- What the loop may do with a packet behind the entries `before`. -/
inductive Handled (before : List Entry) (p : Packet) : List NetEvent → Prop where
  /-- Config is kept. -/
  | config : p.isConfig = true → Handled before p []
  /-- A feed that works. -/
  | fed (hw : Bool) : p.isConfig = false → (hw = true → ∀ e ∈ before, e.replaced = false) →
      Handled before p [.feed (fedAs (before.map (·.packet)) p) p.ptsUs .ok hw]
  /-- The first failed feed of a run of them in a software decoder. -/
  | reported (status : RcStatus) : p.isConfig = false → status ≠ .ok → softBefore before = false →
      Handled before p
        [.feed (fedAs (before.map (·.packet)) p) p.ptsUs status false, .emit status softMsg]
  /-- A later failed feed of the run. -/
  | silent (status : RcStatus) : p.isConfig = false → status ≠ .ok → softBefore before = true →
      Handled before p [.feed (fedAs (before.map (·.packet)) p) p.ptsUs status false]
  /-- The first failed feed in the hardware decoder, when config has been seen. -/
  | primed (status status' : RcStatus) (c : List UInt8) : p.isConfig = false → status ≠ .ok →
      (∀ e ∈ before, e.replaced = false) → lastConfig (before.map (·.packet)) = some c →
      Handled before p
        [.feed (fedAs (before.map (·.packet)) p) p.ptsUs status true, .emit status hwMsg,
          .destroy, .create false true, .feed (c ++ p.data) p.ptsUs status' false]
  /-- The same, when none has. -/
  | unprimed (status : RcStatus) : p.isConfig = false → status ≠ .ok →
      (∀ e ∈ before, e.replaced = false) → lastConfig (before.map (·.packet)) = none →
      Handled before p
        [.feed (fedAs (before.map (·.packet)) p) p.ptsUs status true, .emit status hwMsg,
          .destroy, .create false true]
  /-- No software decoder can be created. -/
  | orphaned (status : RcStatus) : p.isConfig = false → status ≠ .ok →
      (∀ e ∈ before, e.replaced = false) →
      Handled before p
        [.feed (fedAs (before.map (·.packet)) p) p.ptsUs status true, .emit status hwMsg,
          .destroy, .create false false, .emit .errDecode noDecoderMsg]

/-! ## The loop does what it should -/

theorem lastConfig_snoc (before : List Packet) (p : Packet) :
    lastConfig (before ++ [p]) = if p.isConfig then some p.data else lastConfig before := by
  simp only [lastConfig, List.filter_append]
  cases hp : p.isConfig <;> simp [hp]

theorem softBefore_snoc (before : List Entry) (e : Entry) :
    softBefore (before ++ [e]) = e.softFailed.getD (softBefore before) := by
  simp only [softBefore, List.filterMap_append]
  cases he : e.softFailed <;> simp [he]

/-- A software decoder stays one. -/
theorem isHw_of_afterFeed {d : Option RcDecoder} {r : FeedResult}
    (h : rcDecoderIsHw (afterFeed d r) = true) : rcDecoderIsHw d = true := by
  cases d with
  | none => cases h
  | some d =>
    simp only [afterFeed, Option.map_some, rcDecoderIsHw, Bool.not_or, Bool.and_eq_true] at h ⊢
    exact ⟨h.1, h.2.1⟩

namespace NetThread

def packets (s : NetThread) : List Packet := s.log.map (·.packet)

/-- An entry answers to the log before it: the loop had a decoder, and handled the
packet as it should. -/
def Answers (before : List Entry) (e : Entry) : Prop :=
  (∀ x ∈ before, x.orphaned = false) ∧ Handled before e.packet e.events

structure Inv (s : NetThread) : Prop where
  each : Each Answers s.log
  cfg : s.cfgBuf = (lastConfig s.packets).getD []
  cfg_ne : ∀ c, lastConfig s.packets = some c → c ≠ []
  need : s.needCfg = match s.packets.getLast? with
    | some q => q.isConfig
    | none => true
  err : s.errEmitted = softBefore s.log
  errHw : s.errEmitted = true → rcDecoderIsHw s.decoder = false
  replacedHw : rcDecoderIsHw s.decoder = true → ∀ e ∈ s.log, e.replaced = false
  live : s.stopped = false → ∀ e ∈ s.log, e.orphaned = false

theorem inv_start (d : RcDecoder) : (start d).Inv where
  each := .nil
  cfg := rfl
  cfg_ne := by simp [packets, start, lastConfig]
  need := rfl
  err := rfl
  errHw := by simp [start]
  replacedHw := by simp [start]
  live := by simp [start]

variable {s : NetThread}

/-- What the loop feeds is the packet, behind config with the config in front. -/
theorem Inv.fedAs (h : s.Inv) {t : NetTurn} (hm : t.mergeRoom = true) (p : Packet) :
    (if (s.needCfg && s.cfgBuf.length ≠ 0 && t.mergeRoom) = true then s.cfgBuf ++ p.data
      else p.data) = Core.fedAs s.packets p := by
  have hneed := h.need
  rcases List.eq_nil_or_concat s.packets with hnil | ⟨before, q, hq⟩
  · have hcfg := h.cfg
    simp only [hnil, lastConfig, List.filter_nil, List.getLast?_nil, Option.map_none,
      Option.getD_none] at hcfg
    simp [Core.fedAs, hnil, hcfg]
  · rw [List.concat_eq_append] at hq
    rw [hq, List.getLast?_concat] at hneed
    simp only [Core.fedAs, hq, List.getLast?_concat]
    cases hc : q.isConfig with
    | false => simp [hneed, hc]
    | true =>
      have hlast : lastConfig s.packets = some q.data := by rw [hq, lastConfig_snoc, if_pos hc]
      have hcfg : s.cfgBuf = q.data := by rw [h.cfg, hlast]; rfl
      have hne : q.data ≠ [] := h.cfg_ne _ hlast
      simp [hneed, hc, hcfg, hm, hne]

/-- The loop stays right when it logs what it should for a packet. -/
theorem Inv.append (h : s.Inv) (hlive : s.stopped = false) {s' : NetThread} {p : Packet}
    {events : List NetEvent} (hne : p.isConfig = true → p.data ≠ [])
    (hlog : s'.log = s.log ++ [⟨p, events⟩])
    (hcfg : s'.cfgBuf = if p.isConfig then p.data else s.cfgBuf)
    (hneed : s'.needCfg = p.isConfig) (hh : Handled s.log p events)
    (herr : s'.errEmitted = (Entry.softFailed ⟨p, events⟩).getD s.errEmitted)
    (herrHw : s'.errEmitted = true → rcDecoderIsHw s'.decoder = false)
    (hrep : rcDecoderIsHw s'.decoder = true → Entry.replaced ⟨p, events⟩ = false ∧ rcDecoderIsHw s.decoder = true)
    (horph : s'.stopped = false → Entry.orphaned ⟨p, events⟩ = false) : s'.Inv := by
  have hpackets : s'.packets = s.packets ++ [p] := by simp [packets, hlog]
  have hlast : lastConfig s'.packets = if p.isConfig then some p.data else lastConfig s.packets := by
    rw [hpackets, lastConfig_snoc]
  exact {
    each := hlog ▸ h.each.snoc ⟨h.live hlive, hh⟩
    cfg := by
      rw [hcfg, hlast, h.cfg]
      split <;> rfl
    cfg_ne := by
      intro c hc
      rw [hlast] at hc
      split at hc
      · rename_i hp
        cases hc
        exact hne hp
      · exact h.cfg_ne c hc
    need := by rw [hneed, hpackets, List.getLast?_concat]
    err := by rw [herr, hlog, softBefore_snoc, h.err]
    errHw := herrHw
    replacedHw := by
      intro hhw e he
      rw [hlog] at he
      rcases List.mem_append.mp he with he | he
      · exact h.replacedHw (hrep hhw).2 e he
      · rw [List.mem_singleton.mp he]
        exact (hrep hhw).1
    live := by
      intro hs e he
      rw [hlog] at he
      rcases List.mem_append.mp he with he | he
      · exact h.live hlive e he
      · rw [List.mem_singleton.mp he]
        exact horph hs }

theorem Inv.config (h : s.Inv) (hlive : s.stopped = false) {t : NetTurn} (hroom : t.cfgRoom = true)
    {p : Packet} (hp : p.isConfig = true) (hne : p.data ≠ []) : (s.config t p).Inv := by
  simp only [NetThread.config, hroom, ↓reduceIte]
  exact h.append hlive (fun _ => hne) rfl (by simp [note, hp]) (by simp [note, hp]) (.config hp)
    rfl h.errHw (fun hhw => ⟨rfl, hhw⟩) (fun _ => rfl)

/-- The decoder that fails is the first one, and no failure has been reported. -/
theorem Inv.replace (h : s.Inv) (hlive : s.stopped = false) {t : NetTurn}
    (hroom : t.primeRoom = true) {p : Packet} (hp : p.isConfig = false)
    (hstatus : t.feed.status ≠ .ok) (hhw : rcDecoderIsHw (afterFeed s.decoder t.feed) = true)
    {s' : NetThread} (hs' : s' = { s with needCfg := false, decoder := afterFeed s.decoder t.feed }) :
    (s'.replace t p (.feed (Core.fedAs s.packets p) p.ptsUs t.feed.status true)).Inv := by
  subst hs'
  have hhw0 := isHw_of_afterFeed hhw
  have hfirst := h.replacedHw hhw0
  have herr : s.errEmitted = false := by
    by_contra he
    rw [Bool.not_eq_false] at he
    rw [h.errHw he] at hhw0
    cases hhw0
  have hlast : ∀ c, lastConfig s.packets = some c → s.cfgBuf = c := by
    intro c hc
    rw [h.cfg, hc]
    rfl
  have hnp : p.isConfig = true → p.data ≠ [] := by simp [hp]
  unfold NetThread.replace
  split
  · rename_i hc
    split
    · rename_i hcfg
      obtain ⟨c, hcl⟩ : ∃ c, lastConfig s.packets = some c := by
        cases hl : lastConfig s.packets with
        | some c => exact ⟨c, rfl⟩
        | none =>
          have h0 := h.cfg
          rw [hl] at h0
          exact absurd (by rw [h0]; rfl) hcfg.1
      have hh : Handled s.log p _ :=
        .primed t.feed.status t.prime.status c hp hstatus hfirst hcl
      rw [← hlast c hcl] at hh
      exact h.append hlive hnp rfl (by simp [note, hp]) (by simp [note, hp]) (hc ▸ hh)
        (by simp [note, Entry.softFailed, NetEvent.softFailed, herr]) (by simp [note, herr]) (fun hsw => by cases hsw)
        (by simp [Entry.orphaned, hc])
    · rename_i hcfg
      have hnone : lastConfig s.packets = none := by
        cases hl : lastConfig s.packets with
        | none => rfl
        | some c =>
          refine absurd ⟨?_, hroom⟩ hcfg
          rw [show s.cfgBuf = c from hlast c hl]
          exact fun h0 => h.cfg_ne c hl (List.length_eq_zero_iff.mp h0)
      have hh : Handled s.log p _ := .unprimed t.feed.status hp hstatus hfirst hnone
      exact h.append hlive hnp rfl (by simp [note, hp]) (by simp [note, hp]) (hc ▸ hh)
        (by simp [note, Entry.softFailed, NetEvent.softFailed, herr]) (by simp [note, herr]) (fun hsw => by cases hsw)
        (by simp [Entry.orphaned, hc])
  · rename_i hc
    rw [Bool.not_eq_true] at hc
    have hh : Handled s.log p _ := .orphaned t.feed.status hp hstatus hfirst
    exact h.append hlive hnp rfl (by simp [note, hp]) (by simp [note, hp]) (hc ▸ hh)
      (by simp [note, Entry.softFailed, NetEvent.softFailed, herr]) (by simp [note, herr]) (fun hsw => by cases hsw)
      (fun hs => by cases hs)

theorem Inv.data (h : s.Inv) (hlive : s.stopped = false) {t : NetTurn} (hm : t.mergeRoom = true)
    (hroom : t.primeRoom = true) {p : Packet} (hp : p.isConfig = false) : (s.data t p).Inv := by
  have hnp : p.isConfig = true → p.data ≠ [] := by simp [hp]
  have hfirst : rcDecoderIsHw (afterFeed s.decoder t.feed) = true → ∀ e ∈ s.log, e.replaced = false :=
    fun hhw => h.replacedHw (isHw_of_afterFeed hhw)
  simp only [NetThread.data, h.fedAs hm]
  split
  · rename_i hok
    have hh : Handled s.log p _ := .fed (rcDecoderIsHw (afterFeed s.decoder t.feed)) hp hfirst
    exact h.append hlive hnp rfl (by simp [note, hp]) (by simp [note, hp]) (by rw [hok]; exact hh)
      (by simp [note, Entry.softFailed, NetEvent.softFailed, hok]) (by simp [note])
      (fun hhw => ⟨rfl, isHw_of_afterFeed hhw⟩) (fun _ => rfl)
  · rename_i hstatus
    split
    · rename_i hhw
      rw [hhw]
      exact h.replace hlive hroom hp hstatus hhw rfl
    · rename_i hhw
      rw [Bool.not_eq_true] at hhw
      rw [hhw]
      split
      · rename_i he
        have hh : Handled s.log p _ := .silent t.feed.status hp hstatus (h.err ▸ he)
        exact h.append hlive hnp rfl (by simp [note, hp]) (by simp [note, hp]) hh
          (by simp [note, Entry.softFailed, NetEvent.softFailed, hstatus, he]) (fun _ => hhw)
          (fun hhw' => by simp [note, hhw] at hhw') (fun _ => rfl)
      · rename_i he
        rw [Bool.not_eq_true] at he
        have hh : Handled s.log p _ := .reported t.feed.status hp hstatus (h.err ▸ he)
        exact h.append hlive hnp rfl (by simp [note, hp]) (by simp [note, hp]) hh
          (by simp [note, Entry.softFailed, NetEvent.softFailed, hstatus]) (fun _ => hhw)
          (fun hhw' => by simp [note, hhw] at hhw') (fun _ => rfl)

/-! ### Runs of failures -/

/-- The number of maximal runs of `true` in a list; `prev` is the element before it. -/
def runs (prev : Bool) : List Bool → Nat
  | [] => 0
  | b :: bs => (if b && !prev then 1 else 0) + runs b bs

theorem runs_snoc (prev : Bool) (bs : List Bool) (b : Bool) :
    runs prev (bs ++ [b]) = runs prev bs + if b && !bs.getLast?.getD prev then 1 else 0 := by
  induction bs generalizing prev with
  | nil => simp [runs]
  | cons c bs ih =>
    simp only [List.cons_append, runs, ih, List.getLast?_cons, Option.getD_some]
    omega

/-- A report of a decode error. -/
def isReport : NetEvent → Bool
  | .emit _ msg => msg = softMsg
  | _ => false

def reports (log : List Entry) : Nat := (log.flatMap (·.events)).countP isReport

/-- Whether each packet that was fed failed in a software decoder. -/
def failures (log : List Entry) : List Bool := log.filterMap Entry.softFailed

/-- A handled packet is reported if it begins a run of failures. -/
theorem runs_handled {before : List Entry} {e : Entry} (h : Handled before e.packet e.events) :
    runs false (failures (before ++ [e])) =
      runs false (failures before) + e.events.countP isReport := by
  have hsnoc : failures (before ++ [e]) = failures before ++ e.softFailed.toList := by
    simp only [failures, List.filterMap_append]
    cases he : e.softFailed <;> simp [he]
  rw [hsnoc]
  obtain ⟨p, events⟩ := e
  replace h : Handled before p events := h
  cases h with
  | config => simp [Entry.softFailed]
  | reported status _ hstatus hsoft =>
    have hlast : (failures before).getLast?.getD false = false := hsoft
    simp [Entry.softFailed, NetEvent.softFailed, hstatus, runs_snoc, hlast, isReport]
  | silent status _ hstatus hsoft =>
    have hlast : (failures before).getLast?.getD false = true := hsoft
    simp [Entry.softFailed, NetEvent.softFailed, hstatus, runs_snoc, hlast, isReport]
  | _ => simp [Entry.softFailed, NetEvent.softFailed, runs_snoc, isReport, hwMsg, softMsg, noDecoderMsg]

theorem reports_eq_runs {log : List Entry} (h : Each Answers log) :
    reports log = runs false (failures log) := by
  induction log using List.reverseRecOn with
  | nil => rfl
  | append_singleton log e ih =>
    obtain ⟨hlog, he⟩ := h.of_snoc
    rw [runs_handled he.2, ← ih hlog]
    simp [reports]

/-! ### A whole run -/

def reads (turns : List NetTurn) : List Packet := turns.filterMap fun t => t.read.toOption

theorem packets_config (t : NetTurn) (p : Packet) : (s.config t p).packets = s.packets ++ [p] := by
  unfold NetThread.config
  split <;> simp [note, packets]

theorem packets_data (t : NetTurn) (p : Packet) : (s.data t p).packets = s.packets ++ [p] := by
  simp only [NetThread.data, NetThread.replace]
  repeat' split
  all_goals simp [note, packets]

/-- What one turn does: nothing, the end of the loop, or a packet. -/
theorem netTurn_cases (s : NetThread) (t : NetTurn) :
    (s.stopped = true ∧ netTurn s t = s) ∨
    (s.stopped = false ∧ (netTurn s t).stopped = true ∧ (netTurn s t).log = s.log ∧
      netTurn s t = { s with stopped := true, ending := (netTurn s t).ending }) ∨
    ∃ p, s.stopped = false ∧ t.read = .ok p ∧
      netTurn s t = if p.isConfig then s.config t p else s.data t p := by
  cases hs : s.stopped with
  | true => exact .inl ⟨rfl, by simp [netTurn, hs]⟩
  | false =>
    cases hr : t.running with
    | false => exact .inr (.inl ⟨rfl, by simp [netTurn, hs, hr]⟩)
    | true =>
      cases hread : t.read with
      | error r => exact .inr (.inl ⟨rfl, by simp [netTurn, hs, hr, hread]⟩)
      | ok p => exact .inr (.inr ⟨p, rfl, rfl, by simp [netTurn, hs, hr, hread]⟩)

/-- The environment grants every allocation, and reads packets as
`rc_demux_read_packet` delivers them. -/
structure Granted (t : NetTurn) : Prop where
  cfgRoom : t.cfgRoom = true
  mergeRoom : t.mergeRoom = true
  primeRoom : t.primeRoom = true
  read : ∀ p, t.read = .ok p → ∃ alloc r r', (rcDemuxReadPacket alloc).exec r = (.ok p, r')

theorem Inv.netTurn (h : s.Inv) {t : NetTurn} (ht : Granted t) : (Core.netTurn s t).Inv := by
  rcases netTurn_cases s t with ⟨-, heq⟩ | ⟨hlive, -, -, heq⟩ | ⟨p, hlive, hread, heq⟩
  · rwa [heq]
  · rw [heq]
    exact ⟨h.each, h.cfg, h.cfg_ne, h.need, h.err, h.errHw, h.replacedHw, fun hs => by cases hs⟩
  · rw [heq]
    split
    · rename_i hp
      obtain ⟨alloc, r, r', hexec⟩ := ht.read p hread
      exact h.config hlive ht.cfgRoom hp (rcDemuxReadPacket_data_ne hexec)
    · rename_i hp
      exact h.data hlive ht.mergeRoom ht.primeRoom (by simpa using hp)

theorem inv_foldl (turns : List NetTurn) (ht : ∀ t ∈ turns, Granted t) (h : s.Inv) :
    (turns.foldl Core.netTurn s).Inv := by
  induction turns generalizing s with
  | nil => exact h
  | cons t turns ih =>
    exact ih (fun u hu => ht u (List.mem_cons_of_mem t hu)) (h.netTurn (ht t List.mem_cons_self))

theorem foldl_stopped (turns : List NetTurn) {s : NetThread} (h : s.stopped = true) :
    turns.foldl Core.netTurn s = s := by
  induction turns with
  | nil => rfl
  | cons t turns ih =>
    rw [List.foldl_cons, show Core.netTurn s t = s by simp [Core.netTurn, h]]
    exact ih

/-- The packets of the log are those that were read, up to the turn that stops the
loop. -/
theorem packets_foldl (turns : List NetTurn) (s : NetThread) :
    ∃ n ≤ turns.length, (turns.foldl Core.netTurn s).packets = s.packets ++ reads (turns.take n) ∧
      ((turns.foldl Core.netTurn s).stopped = false → n = turns.length) := by
  induction turns generalizing s with
  | nil => exact ⟨0, Nat.le_refl _, by simp [reads], fun _ => rfl⟩
  | cons t turns ih =>
    obtain ⟨n, hn, hp, hs⟩ := ih (Core.netTurn s t)
    rw [List.foldl_cons]
    have hstop : (Core.netTurn s t).stopped = true → (Core.netTurn s t).packets = s.packets →
        ∃ n ≤ (t :: turns).length, (turns.foldl Core.netTurn (Core.netTurn s t)).packets =
          s.packets ++ reads ((t :: turns).take n) ∧
          ((turns.foldl Core.netTurn (Core.netTurn s t)).stopped = false →
            n = (t :: turns).length) := by
      intro hst hpk
      have hfix : turns.foldl Core.netTurn (Core.netTurn s t) = Core.netTurn s t :=
        foldl_stopped turns hst
      exact ⟨0, Nat.zero_le _, by rw [hfix, hpk]; simp [reads], by rw [hfix, hst]; simp⟩
    rcases netTurn_cases s t with ⟨hst, heq⟩ | ⟨-, hst, hlog, -⟩ | ⟨p, -, hread, heq⟩
    · exact hstop (by rw [heq, hst]) (by rw [heq])
    · exact hstop hst (by simp only [packets, hlog])
    · refine ⟨n + 1, Nat.succ_le_succ hn, ?_, fun h => by rw [List.length_cons, hs h]⟩
      have hstep : (Core.netTurn s t).packets = s.packets ++ [p] := by
        rw [heq]
        split
        · exact packets_config t p
        · exact packets_data t p
      rw [hp, hstep, List.take_succ_cons]
      simp [reads, hread, Except.toOption]

end NetThread

open NetThread

/-- **What the video loop does with its packets.** Every packet that is read, up to the
one that stops the loop, is handled in order as `Handled` says: config is never fed on
its own and goes in front of the packet behind it, every other packet is fed as it is;
the first failed feed in a hardware decoder, and no later one, puts a software decoder
in its place, primed with the last config and that packet, or ends the loop. A decode
error is reported once for each maximal run of packets that fail in a software
decoder. -/
theorem net_thread_packets (d : RcDecoder) (turns : List NetTurn) (ht : ∀ t ∈ turns, Granted t) :
    Each Answers (netThread d turns).log ∧
      reports (netThread d turns).log = runs false (failures (netThread d turns).log) ∧
      ∃ n ≤ turns.length, (netThread d turns).packets = reads (turns.take n) ∧
        ((netThread d turns).stopped = false → n = turns.length) := by
  have hinv := inv_foldl turns ht (inv_start d)
  obtain ⟨n, hn, hp, hs⟩ := packets_foldl turns (.start d)
  exact ⟨hinv.each, reports_eq_runs hinv.each, n, hn, hp, hs⟩

/-- A config packet of one byte, and a packet of one byte. -/
def demoConfig : Packet := { isConfig := true, isKey := false, ptsUs := 0, data := [7] }
def demoData : Packet := { isConfig := false, isKey := false, ptsUs := 0, data := [8] }

/-- A turn that reads `p`; feeding it returns `status`, and priming a new decoder with
it fails. -/
def demoTurn (p : Packet) (status : RcStatus) : NetTurn :=
  { running := true, read := .ok p, runningAfter := true, cfgRoom := true, mergeRoom := true,
    primeRoom := true, feed := ⟨status, false⟩, create := true, prime := ⟨.errDecode, false⟩ }

theorem demoTurn_granted (status : RcStatus) :
    Granted (demoTurn demoConfig status) ∧ Granted (demoTurn demoData status) := by
  refine ⟨⟨rfl, rfl, rfl, fun p hp => ?_⟩, ⟨rfl, rfl, rfl, fun p hp => ?_⟩⟩
  · cases hp
    exact ⟨fun _ _ => true, .new [.data [128, 0, 0, 0, 0, 0, 0, 0, 0, 0, 0, 1, 7]], _, rfl⟩
  · cases hp
    exact ⟨fun _ _ => true, .new [.data [0, 0, 0, 0, 0, 0, 0, 0, 0, 0, 0, 1, 8]], _, rfl⟩

theorem net_thread_packets_config :
    reports (netThread ⟨true, false⟩ [demoTurn demoConfig .ok, demoTurn demoData .ok]).log =
      runs false (failures
        (netThread ⟨true, false⟩ [demoTurn demoConfig .ok, demoTurn demoData .ok]).log) :=
  (net_thread_packets ⟨true, false⟩ [demoTurn demoConfig .ok, demoTurn demoData .ok]
    (by simp [demoTurn_granted])).2.1

/-- The hardware decoder fails on the first packet behind the config, and the software
decoder fails on the same packet while it is primed: one failed feed in a software
decoder, a run of its own, and no report of it. -/
theorem net_thread_prime_unreported :
    ((netThread ⟨true, false⟩ [demoTurn demoConfig .ok, demoTurn demoData .errDecode]).log.flatMap
        (·.events)).filterMap NetEvent.softFailed = [false, true] ∧
      runs false [false, true] = 1 ∧
      reports (netThread ⟨true, false⟩
        [demoTurn demoConfig .ok, demoTurn demoData .errDecode]).log = 0 := by
  decide

end RigControl.Core
