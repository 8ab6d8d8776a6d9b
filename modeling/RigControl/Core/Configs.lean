import RigControl.Core.NetThread
import RigControl.Lib.Lts

/-!
# Configs the video loop owes its decoder

A decoder needs the config that the loop keeps before it can make anything of the
packets behind it. `need_cfg` says that it has yet to get it. The loop clears the flag
with every packet it feeds, whether or not the buffer that puts the config in front
could be grown, and it leaves the flag clear for a decoder it has just created,
whether or not that one could be primed. A turn's `mergeRoom` and `primeRoom` are what
the two calls of `ensure_cap` for that buffer return.
-/

namespace RigControl.Core

open RigControl.Lib

/-- What the decoder at the end of the events has been fed. -/
def fedSince : List NetEvent → List (List UInt8) :=
  List.foldl (fun fed ev => match ev with
    | .feed data _ _ _ => fed ++ [data]
    | .create _ _ => []
    | _ => fed) []

def NetEvent.fedData : NetEvent → Option (List UInt8)
  | .feed data _ _ _ => some data
  | _ => none

namespace NetThread

/-- What the present decoder has been fed. -/
def fedNow (s : NetThread) : List (List UInt8) := fedSince (s.log.flatMap (·.events))

/-- A config has been kept, and nothing the decoder has been fed starts with it. -/
def Owes (s : NetThread) : Prop := s.cfgBuf ≠ [] ∧ ∀ data ∈ s.fedNow, ¬s.cfgBuf <+: data

/-- What the loop feeds first for the last packet it has read. -/
def lastFed (s : NetThread) : Option (List UInt8) :=
  s.log.getLast?.bind fun e => e.events.head?.bind NetEvent.fedData

/-- The turn reads this packet, and it is not config. -/
def Takes (s : NetThread) (t : NetTurn) (p : Packet) : Prop :=
  s.stopped = false ∧ t.running = true ∧ t.read = .ok p ∧ p.isConfig = false

/-- The turn does not forget the config the decoder is owed: what it feeds starts with
it, or `need_cfg` stays set. -/
def Keeps (s : NetThread) (t : NetTurn) : Prop :=
  ∀ p, s.Takes t p → s.Owes →
    (∃ data, (netTurn s t).lastFed = some data ∧ s.cfgBuf <+: data) ∨ (netTurn s t).needCfg = true

/-- The decoder has been fed nothing, and `need_cfg` is clear: it has replaced another
and could not be primed, and no config has been kept since. -/
def Unprimed (s : NetThread) : Prop := s.needCfg = false ∧ s.fedNow = []

/-- A packet that is to come behind an owed config, and does not start with it itself,
finds room for both, and not a decoder that could not be primed. -/
def Spared (s : NetThread) (t : NetTurn) : Prop :=
  ∀ p, s.Takes t p → s.Owes → ¬s.cfgBuf <+: p.data → t.mergeRoom = true ∧ ¬s.Unprimed

/-! ## What the decoder has been fed -/

theorem fedSince_append_feed (l : List NetEvent) (data : List UInt8) (pts : Int64) (st : RcStatus)
    (hw : Bool) : fedSince (l ++ [.feed data pts st hw]) = fedSince l ++ [data] := by
  simp [fedSince]

theorem fedSince_append_emit (l : List NetEvent) (r : RcStatus) (msg : String) :
    fedSince (l ++ [.emit r msg]) = fedSince l := by
  simp [fedSince]

variable {s : NetThread} {t : NetTurn} {p : Packet}

theorem fedNow_note (events : List NetEvent) :
    (s.note p events).fedNow = fedSince (s.log.flatMap (·.events) ++ events) := by
  simp [fedNow, note]

/-- What the loop feeds for a packet that is not config. -/
def fdata (s : NetThread) (t : NetTurn) (p : Packet) : List UInt8 :=
  if s.needCfg && s.cfgBuf.length ≠ 0 && t.mergeRoom then s.cfgBuf ++ p.data else p.data

theorem lastFed_note (data : List UInt8) (pts : Int64) (st : RcStatus) (hw : Bool)
    (events : List NetEvent) :
    (s.note p (.feed data pts st hw :: events)).lastFed = some data := by
  simp [lastFed, note, NetEvent.fedData]

/-- A decoder that takes the place of another has been fed nothing, if there was no
config or no room for it, or the packet with the config in front. -/
theorem fedNow_replace (data : List UInt8) (pts : Int64) (st : RcStatus) (hw : Bool) :
    (s.replace t p (.feed data pts st hw)).fedNow = [] ∧
        ((s.replace t p (.feed data pts st hw)).stopped = true ∨ s.cfgBuf = [] ∨
          t.primeRoom = false) ∨
      (s.replace t p (.feed data pts st hw)).fedNow = [s.cfgBuf ++ p.data] := by
  unfold NetThread.replace
  split
  · split
    · exact .inr (by simp [fedNow_note, fedSince])
    · rename_i hroom
      refine .inl ⟨by simp [fedNow_note, fedSince], .inr ?_⟩
      by_cases hcfg : s.cfgBuf = []
      · exact .inl hcfg
      · exact .inr (by simpa [hcfg] using hroom)
  · exact .inl ⟨by simp [fedNow_note, fedSince], .inl rfl⟩

theorem replace_rest (data : List UInt8) (pts : Int64) (st : RcStatus) (hw : Bool) :
    (s.replace t p (.feed data pts st hw)).cfgBuf = s.cfgBuf ∧
      (s.replace t p (.feed data pts st hw)).needCfg = s.needCfg ∧
      (s.replace t p (.feed data pts st hw)).lastFed = some data := by
  unfold NetThread.replace
  split
  · split
    · exact ⟨rfl, rfl, lastFed_note data pts st hw _⟩
    · exact ⟨rfl, rfl, lastFed_note data pts st hw _⟩
  · exact ⟨rfl, rfl, lastFed_note data pts st hw _⟩

theorem data_rest (s : NetThread) (t : NetTurn) (p : Packet) :
    (s.data t p).cfgBuf = s.cfgBuf ∧ (s.data t p).needCfg = false ∧
      (s.data t p).lastFed = some (s.fdata t p) := by
  simp only [NetThread.data]
  split
  · exact ⟨rfl, rfl, lastFed_note _ _ _ _ _⟩
  · split
    · obtain ⟨hcfg, hneed, hfed⟩ := @replace_rest
        { s with needCfg := false, decoder := afterFeed s.decoder t.feed } t p (s.fdata t p)
        p.ptsUs t.feed.status (rcDecoderIsHw (afterFeed s.decoder t.feed))
      exact ⟨hcfg, hneed, hfed⟩
    · split <;> exact ⟨rfl, rfl, lastFed_note _ _ _ _ _⟩

/-- What becomes of the decoder's feeds with a packet that is not config: there is one
more, or they are those of a decoder that has just been created. -/
theorem fedNow_data (s : NetThread) (t : NetTurn) (p : Packet) :
    (s.data t p).fedNow = s.fedNow ++ [s.fdata t p] ∨
      ((s.data t p).fedNow = [] ∧
        ((s.data t p).stopped = true ∨ s.cfgBuf = [] ∨ t.primeRoom = false)) ∨
      (s.data t p).fedNow = [s.cfgBuf ++ p.data] := by
  simp only [NetThread.data]
  split
  · exact .inl ((fedNow_note _).trans (fedSince_append_feed _ _ _ _ _))
  · split
    · exact .inr (@fedNow_replace
        { s with needCfg := false, decoder := afterFeed s.decoder t.feed } t p (s.fdata t p)
        p.ptsUs t.feed.status (rcDecoderIsHw (afterFeed s.decoder t.feed)))
    · left
      split
      · exact (fedNow_note _).trans (fedSince_append_feed _ _ _ _ _)
      · refine (fedNow_note _).trans ?_
        rw [List.append_cons, fedSince_append_emit]
        exact fedSince_append_feed _ _ _ _ _

theorem config_rest (s : NetThread) (t : NetTurn) (p : Packet) :
    (s.config t p).fedNow = s.fedNow ∧
      ((s.config t p).needCfg = true ∨ (s.config t p).needCfg = s.needCfg ∧
        (s.config t p).cfgBuf = s.cfgBuf) := by
  unfold NetThread.config
  split
  · exact ⟨(fedNow_note []).trans (by simp [fedNow]), .inl rfl⟩
  · exact ⟨(fedNow_note []).trans (by simp [fedNow]), .inr ⟨rfl, rfl⟩⟩

/-! ## The law and its condition, turn by turn -/

/-- While no config has been forgotten: the flag is set for a config the decoder is
owed, or the decoder could not be primed. -/
def Remembers (s : NetThread) : Prop := s.Owes → s.needCfg = true ∨ s.Unprimed

theorem netTurn_takes (h : s.Takes t p) : netTurn s t = s.data t p := by
  obtain ⟨hlive, hrun, hread, hp⟩ := h
  simp [netTurn, hlive, hrun, hread, hp]

/-- A turn that reads no such packet feeds nothing. -/
theorem netTurn_idle (h : ∀ p, ¬s.Takes t p) :
    (netTurn s t).fedNow = s.fedNow ∧
      ((netTurn s t).needCfg = true ∨ (netTurn s t).needCfg = s.needCfg ∧
        (netTurn s t).cfgBuf = s.cfgBuf) := by
  rcases netTurn_cases s t with ⟨-, heq⟩ | ⟨-, -, -, heq⟩ | ⟨p, hlive, hread, heq⟩
  · rw [heq]
    exact ⟨rfl, .inr ⟨rfl, rfl⟩⟩
  · rw [heq]
    exact ⟨rfl, .inr ⟨rfl, rfl⟩⟩
  · cases hp : p.isConfig with
    | true =>
      rw [heq, hp]
      exact config_rest s t p
    | false =>
      cases hrun : t.running with
      | true => exact absurd ⟨hlive, hrun, hread, hp⟩ (h p)
      | false =>
        have hidle : netTurn s t = { s with stopped := true } := by simp [netTurn, hlive, hrun]
        rw [hidle]
        exact ⟨rfl, .inr ⟨rfl, rfl⟩⟩

/-- Where no config has been forgotten so far, the law and its condition are one. -/
theorem keeps_iff (h : s.Remembers) : s.Keeps t ↔ s.Spared t := by
  refine forall_congr' fun p => forall_congr' fun ht => forall_congr' fun howes => ?_
  obtain ⟨-, hneed, hfed⟩ := data_rest s t p
  have hlen : s.cfgBuf.length ≠ 0 := fun hlen => howes.1 (List.length_eq_zero_iff.mp hlen)
  rw [netTurn_takes ht, hneed, hfed]
  simp only [Option.some.injEq, exists_eq_left', Bool.false_eq_true, or_false]
  rcases h howes with hset | hun
  · have hprimed : ¬s.Unprimed := fun hun => by simp [hun.1] at hset
    cases hm : t.mergeRoom with
    | true => simp [fdata, hset, hlen, hm, hprimed]
    | false => simp [fdata, hm]
  · simp [fdata, hun.1, hun]

/-- The law keeps what it needs. -/
theorem remembers_step (h : s.Remembers) (hk : s.Keeps t) : (netTurn s t).Remembers := by
  by_cases hidle : ∀ p, ¬s.Takes t p
  · obtain ⟨hfed, hneed | ⟨hneed, hcfg⟩⟩ := netTurn_idle hidle
    · exact fun _ => .inl hneed
    · intro howes
      have howes' : s.Owes := by simpa only [Owes, hfed, hcfg] using howes
      simpa only [Unprimed, hfed, hneed] using h howes'
  · push Not at hidle
    obtain ⟨p, ht⟩ := hidle
    obtain ⟨hcfg, hneed, hlast⟩ := data_rest s t p
    have hk' := hk p ht
    rw [netTurn_takes ht] at hk' ⊢
    intro ⟨hne, hnot⟩
    rw [hcfg] at hne hnot
    rcases fedNow_data s t p with hfed | ⟨hfed, -⟩ | hfed
    · -- the decoder stays: a feed that does not start with the config breaks the law
      rw [hfed] at hnot
      have howes : s.Owes := ⟨hne, fun data hdata => hnot data (List.mem_append_left _ hdata)⟩
      rcases hk' howes with ⟨data, hdata, hpre⟩ | hset
      · obtain rfl : s.fdata t p = data := Option.some.inj (hlast.symm.trans hdata)
        exact absurd hpre (hnot _ (by simp))
      · rw [hneed] at hset
        cases hset
    · exact .inr ⟨hneed, hfed⟩
    · rw [hfed] at hnot
      exact absurd (List.prefix_append _ _) (hnot _ List.mem_cons_self)

theorem not_keeps (ht : s.Takes t p) (howes : s.Owes) (hnot : ¬s.cfgBuf <+: s.fdata t p) :
    ¬s.Keeps t := by
  intro hk
  obtain ⟨-, hneed, hlast⟩ := data_rest s t p
  have hkept := hk p ht howes
  rw [netTurn_takes ht, hneed, hlast] at hkept
  simp only [Option.some.injEq, exists_eq_left', Bool.false_eq_true, or_false] at hkept
  exact hnot hkept

/-- With room for every priming only a decoder without a config is not primed. -/
def Primed (s : NetThread) : Prop := s.stopped = false → s.Unprimed → s.cfgBuf = []

theorem primed_step (h : s.Primed) (hroom : t.primeRoom = true) : (netTurn s t).Primed := by
  by_cases hidle : ∀ p, ¬s.Takes t p
  · obtain ⟨hfed, hneed | ⟨hneed, hcfg⟩⟩ := netTurn_idle hidle
    · exact fun _ hun => by simp [hun.1] at hneed
    · intro hlive hun
      have hlive' : s.stopped = false := by
        by_contra hs
        rw [Bool.not_eq_false] at hs
        simp [netTurn, hs] at hlive
      exact hcfg ▸ h hlive' ⟨hneed ▸ hun.1, hfed ▸ hun.2⟩
  · push Not at hidle
    obtain ⟨p, ht⟩ := hidle
    obtain ⟨hcfg, -, -⟩ := data_rest s t p
    rw [netTurn_takes ht]
    intro hlive hun
    have hnil := hun.2
    rcases fedNow_data s t p with hfed | ⟨-, hstop | hempty | hno⟩ | hfed
    · simp [hfed] at hnil
    · simp [hlive] at hstop
    · exact hcfg.trans hempty
    · simp [hroom] at hno
    · simp [hfed] at hnil

end NetThread

open NetThread

/-- The turns of the loop as a system of its own. -/
def netLts (d : RcDecoder) : Lts NetThread NetTurn :=
  { init := .start d, step := fun s t => some (netTurn s t) }

/-- **When no config is forgotten.** In a run of the loop every turn keeps the config
its decoder is owed exactly if, in every turn that reads a packet to come behind such
a config and not starting with it, the merge buffer can be grown and the decoder is
not one that could not be primed. -/
theorem configs_kept_iff (d : RcDecoder) (turns : List NetTurn) :
    (netLts d).Meets Keeps (.start d) turns ↔ (netLts d).Meets Spared (.start d) turns := by
  have h0 : (start d).Remembers := fun _ => .inl rfl
  have hstep : ∀ s t s', s.Remembers → s.Keeps t → (netLts d).step s t = some s' →
      s'.Remembers := by
    intro s t s' h hk hs
    obtain rfl := Option.some.inj hs
    exact remembers_step h hk
  constructor
  · exact Lts.Meets.imp_of_invariant (fun s t h => (keeps_iff h).mp) hstep h0
  · exact Lts.Meets.imp_of_invariant (fun s t h => (keeps_iff h).mpr)
      (fun s t s' h hsp => hstep s t s' h ((keeps_iff h).mpr hsp)) h0

/-- Only a buffer that could not be grown makes the loop forget a config. -/
theorem configs_kept_of_room (d : RcDecoder) {turns : List NetTurn}
    (h : ∀ t ∈ turns, t.mergeRoom = true ∧ t.primeRoom = true) :
    (netLts d).Meets Spared (.start d) turns := by
  have hspared : ∀ s t, Primed s → t.mergeRoom = true ∧ t.primeRoom = true → s.Spared t :=
    fun s t hp hroom p ht howes _ => ⟨hroom.1, fun hun => howes.1 (hp ht.1 hun)⟩
  refine Lts.Meets.imp_of_invariant hspared (fun s t s' hp hroom hs => ?_)
    (fun _ hun => by cases hun.1) (Lts.meets_of_forall _ h)
  obtain rfl := Option.some.inj hs
  exact primed_step hp hroom.2

/-- The config is kept, and there is no room to put it in front of the packet behind
it. The next packet, which could have it, does not get it either. -/
def noRoomRun : List NetTurn :=
  [demoTurn demoConfig .ok, { demoTurn demoData .ok with mergeRoom := false }, demoTurn demoData .ok]

/-- A software decoder takes over, with no room to prime it with a packet longer than
the one before, and the next packet is fed to it without the config. -/
def noPrimeRun : List NetTurn :=
  [demoTurn demoConfig .ok, demoTurn demoData .ok,
    { demoTurn { demoData with data := [8, 8] } .errDecode with primeRoom := false },
    demoTurn demoData .ok]

theorem configs_forgotten :
    ¬(netLts ⟨true, false⟩).Meets Keeps (.start ⟨true, false⟩) noRoomRun ∧
      (netThread ⟨true, false⟩ noRoomRun).fedNow = [[8], [8]] ∧
      ¬(netLts ⟨true, false⟩).Meets Keeps (.start ⟨true, false⟩) noPrimeRun ∧
      (netThread ⟨true, false⟩ noPrimeRun).fedNow = [[8]] := by
  refine ⟨fun h => ?_, by decide, fun h => ?_, by decide⟩
  · have hk := (h.2 _ rfl).1
    exact not_keeps (p := demoData) ⟨rfl, rfl, rfl, rfl⟩ ⟨by decide, by decide⟩ (by decide) hk
  · have hk := ((((h.2 _ rfl).2 _ rfl).2 _ rfl)).1
    exact not_keeps (p := demoData) ⟨rfl, rfl, rfl, rfl⟩ ⟨by decide, by decide⟩ (by decide) hk

end RigControl.Core
