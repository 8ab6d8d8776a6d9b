import RigControl.Core.Deploy
import RigControl.Lib.Timeline

/-!
# Waiting for the device meta, over time

`read_meta_timeout` against what the other side does on the video socket, and when. The
wait for the first byte is cut into slices, and a slice that brings nothing asks whether
the wait is cancelled. The read that follows it is not: `rc_net_read_full` blocks until it
has its bytes or the stream ends. A call that does not return is none.
-/

namespace RigControl.Core

open RigControl.Lib

/-! ## One read -/

/-- What the reads of a socket report, one after another. -/
def socketStream : Timeline UInt8 → Stream
  | [] => []
  | (_, .bytes bs) :: rest => .data bs :: socketStream rest
  | (_, .interrupt) :: rest => .fault .eintr :: socketStream rest
  | (_, .close) :: _ => []
  | (_, .reset) :: _ => [.fault .other]

/-- The loop of `rc_net_read_full` comes to its end. A `read` on a peer that does nothing
more does not return. -/
def netReadFullReturns : Nat → Timeline UInt8 → Bool
  | 0, _ => true
  | _ + 1, [] => false
  | n + 1, (_, .bytes bs) :: rest => netReadFullReturns (n + 1 - bs.length) rest
  | n + 1, (_, .interrupt) :: rest => netReadFullReturns (n + 1) rest
  | _ + 1, (_, .close) :: _ => true
  | _ + 1, (_, .reset) :: _ => true

def metaLen : Nat := 4 + 2 + 4 + 2 + 2 + rcDeviceNameLen

def demuxReadMetaOver (peer : Timeline UInt8) : Option (Except RcStatus RcDeviceMeta) :=
  if netReadFullReturns metaLen peer then some (rcDemuxReadMeta.exec (socketStream peer)).1 else none

/-- The peer closes or resets the connection. -/
def hangsUp : Timeline UInt8 → Bool
  | [] => false
  | (_, .bytes _) :: rest => hangsUp rest
  | (_, .interrupt) :: rest => hangsUp rest
  | (_, .close) :: _ => true
  | (_, .reset) :: _ => true

theorem socketStream_bytes (peer : Timeline UInt8) : (socketStream peer).bytes = sent peer := by
  induction peer with
  | nil => rfl
  | cons x rest ih =>
    obtain ⟨wait, e⟩ := x
    cases e with
    | bytes bs => exact congrArg (bs ++ ·) ih
    | interrupt => exact ih
    | close => rfl
    | reset => rfl

theorem netReadFullReturns_iff (n : Nat) (peer : Timeline UInt8) :
    netReadFullReturns n peer = true ↔ n ≤ (sent peer).length ∨ hangsUp peer = true := by
  induction peer generalizing n with
  | nil => cases n <;> simp [netReadFullReturns, sent, hangsUp]
  | cons x rest ih =>
    obtain ⟨wait, e⟩ := x
    cases n with
    | zero => simp [netReadFullReturns]
    | succ n =>
      cases e with
      | bytes bs =>
        simp only [netReadFullReturns, sent, hangsUp, List.length_append, ih]
        rw [show n + 1 - bs.length ≤ (sent rest).length ↔
          n + 1 ≤ bs.length + (sent rest).length from by omega]
      | interrupt => exact ih (n + 1)
      | close => simp [netReadFullReturns, hangsUp]
      | reset => simp [netReadFullReturns, hangsUp]

/-- The peer sends a whole `device_meta`, or ends the connection. -/
def WholeMeta (peer : Timeline UInt8) : Prop :=
  metaLen ≤ (sent peer).length ∨ hangsUp peer = true

theorem demuxReadMetaOver_isSome (peer : Timeline UInt8) :
    (demuxReadMetaOver peer).isSome ↔ WholeMeta peer := by
  rw [WholeMeta, ← netReadFullReturns_iff, demuxReadMetaOver]
  split <;> simp_all

/-! ## The wait -/

/-- One `poll` for at most `limit` milliseconds, and the peer from then on. No bytes are
no event. -/
def pollOver : Nat → Timeline UInt8 → PollRet × Timeline UInt8
  | _, [] => (.timeout, [])
  | limit, (wait, e) :: rest =>
    if limit ≤ wait then (.timeout, (wait - limit, e) :: rest)
    else
      match e with
      | .interrupt => (.error, rest)
      | .bytes [] => pollOver (limit - wait) rest
      | e => (.ready, (0, e) :: rest)

/-- `read_meta_timeout`, by the slices of the timeout; `cancelled` is what
`wait_cancelled` says at a time. -/
def readMetaTimeoutOver (cancelled : Nat → Bool) :
    Nat → Nat → Timeline UInt8 → Option (Except RcStatus RcDeviceMeta)
  | 0, _, _ => some (.error .errConnect)
  | slices + 1, now, peer =>
    match pollOver waitSliceMs peer with
    | (.ready, peer) => demuxReadMetaOver peer
    | (.error, _) => some (.error .errConnect)
    | (.timeout, peer) =>
      if cancelled (now + waitSliceMs) then some (.error .errConnect)
      else readMetaTimeoutOver cancelled slices (now + waitSliceMs) peer

/-- When a `poll` without an end would first report the socket ready. A signal ends it
before that. -/
def readyAt : Timeline UInt8 → Option Nat
  | [] => none
  | (_, .interrupt) :: _ => none
  | (wait, .bytes []) :: rest => (readyAt rest).map (wait + ·)
  | (wait, .bytes (_ :: _)) :: _ => some wait
  | (wait, .close) :: _ => some wait
  | (wait, .reset) :: _ => some wait

/-- What a `poll` says about the time the socket is ready. -/
def PollTells (limit : Nat) (peer : Timeline UInt8) : PollRet × Timeline UInt8 → Prop
  | (.ready, _) => ∃ t < limit, readyAt peer = some t
  | (.error, _) => readyAt peer = none
  | (.timeout, rest) =>
    (∀ t, readyAt peer = some t → limit ≤ t) ∧ readyAt rest = (readyAt peer).map (· - limit)

theorem PollTells.skip {limit wait : Nat} {peer : Timeline UInt8} (hwait : wait < limit) :
    ∀ {r : PollRet × Timeline UInt8}, PollTells (limit - wait) peer r →
      PollTells limit ((wait, .bytes []) :: peer) r
  | (.ready, _), ⟨t, ht, h⟩ => ⟨wait + t, by omega, by simp [readyAt, h]⟩
  | (.error, _), h => by
    have hnone : readyAt peer = none := h
    simp [PollTells, readyAt, hnone]
  | (.timeout, rest), ⟨hlate, hrest⟩ => by
    refine ⟨?_, ?_⟩
    · intro t ht
      obtain ⟨t', ht', rfl⟩ := Option.map_eq_some_iff.mp ht
      have := hlate t' ht'
      omega
    · rw [hrest, readyAt, Option.map_map]
      exact congrArg (fun f => (readyAt peer).map f) (funext fun t => by simp; omega)

theorem pollOver_tells (limit : Nat) (peer : Timeline UInt8) :
    PollTells limit peer (pollOver limit peer) := by
  induction peer generalizing limit with
  | nil => simp [pollOver, PollTells, readyAt]
  | cons x rest ih =>
    obtain ⟨wait, e⟩ := x
    unfold pollOver
    by_cases hlate : limit ≤ wait
    · rw [if_pos hlate]
      cases e with
      | bytes bs =>
        cases bs with
        | nil =>
          refine ⟨?_, ?_⟩
          · intro t ht
            obtain ⟨t', -, rfl⟩ := Option.map_eq_some_iff.mp ht
            omega
          · rw [readyAt, readyAt, Option.map_map]
            exact congrArg (fun f => (readyAt rest).map f) (funext fun t => by simp; omega)
        | cons b bs => simp [PollTells, readyAt, hlate]
      | interrupt => simp [PollTells, readyAt]
      | close => simp [PollTells, readyAt, hlate]
      | reset => simp [PollTells, readyAt, hlate]
    · rw [if_neg hlate]
      have hwait : wait < limit := by omega
      cases e with
      | bytes bs =>
        cases bs with
        | nil => exact (ih (limit - wait)).skip hwait
        | cons b bs => exact ⟨wait, hwait, rfl⟩
      | interrupt => rfl
      | close => exact ⟨wait, hwait, rfl⟩
      | reset => exact ⟨wait, hwait, rfl⟩

/-- A `poll` takes nothing off the stream. -/
theorem pollOver_keeps (limit : Nat) (peer : Timeline UInt8) :
    sent (pollOver limit peer).2 = sent peer ∧ hangsUp (pollOver limit peer).2 = hangsUp peer := by
  induction peer generalizing limit with
  | nil => exact ⟨rfl, rfl⟩
  | cons x rest ih =>
    obtain ⟨wait, e⟩ := x
    unfold pollOver
    by_cases hlate : limit ≤ wait
    · rw [if_pos hlate]
      cases e <;> exact ⟨rfl, rfl⟩
    · rw [if_neg hlate]
      cases e with
      | bytes bs =>
        cases bs with
        | nil => exact ih (limit - wait)
        | cons b bs => exact ⟨rfl, rfl⟩
      | interrupt => exact ⟨rfl, rfl⟩
      | close => exact ⟨rfl, rfl⟩
      | reset => exact ⟨rfl, rfl⟩

theorem WholeMeta.pollOver (limit : Nat) (peer : Timeline UInt8) :
    WholeMeta (pollOver limit peer).2 ↔ WholeMeta peer := by
  obtain ⟨hsent, hup⟩ := pollOver_keeps limit peer
  rw [WholeMeta, WholeMeta, hsent, hup]

/-- The wait ends because the socket is ready: in one of the slices, and no slice before
it was cancelled. -/
def HeardIn (cancelled : Nat → Bool) (slices now : Nat) (peer : Timeline UInt8) : Prop :=
  ∃ t < slices * waitSliceMs, readyAt peer = some t ∧
    ∀ j, 1 ≤ j → j * waitSliceMs ≤ t → cancelled (now + j * waitSliceMs) = false

/-- A slice that brought nothing and is not cancelled only takes its time. -/
theorem HeardIn.slice {cancelled : Nat → Bool} {slices now : Nat} {peer rest : Timeline UInt8}
    (hlate : ∀ t, readyAt peer = some t → waitSliceMs ≤ t)
    (hrest : readyAt rest = (readyAt peer).map (· - waitSliceMs))
    (hgo : cancelled (now + waitSliceMs) = false) :
    HeardIn cancelled (slices + 1) now peer ↔ HeardIn cancelled slices (now + waitSliceMs) rest := by
  unfold HeardIn
  refine ⟨?_, ?_⟩
  · rintro ⟨t, ht, hready, hno⟩
    have hle := hlate t hready
    refine ⟨t - waitSliceMs, by rw [Nat.add_one_mul] at ht; omega, by rw [hrest, hready]; rfl, ?_⟩
    intro j hj hjt
    have h := hno (j + 1) (by omega) (by rw [Nat.add_one_mul]; omega)
    rwa [Nat.add_one_mul, Nat.add_comm (j * waitSliceMs), ← Nat.add_assoc] at h
  · rintro ⟨t', ht', hready, hno⟩
    obtain ⟨t, ht, rfl⟩ := Option.map_eq_some_iff.mp (hrest ▸ hready)
    have hle := hlate t ht
    refine ⟨t, by rw [Nat.add_one_mul]; omega, ht, ?_⟩
    intro j hj hjt
    obtain ⟨j, rfl⟩ : ∃ i, j = i + 1 := ⟨j - 1, by omega⟩
    rw [Nat.add_one_mul] at hjt ⊢
    cases j with
    | zero => simpa using hgo
    | succ j =>
      have h := hno (j + 1) (by omega) (by omega)
      rwa [Nat.add_assoc, Nat.add_comm waitSliceMs] at h

theorem readMetaTimeoutOver_isSome (cancelled : Nat → Bool) (slices now : Nat)
    (peer : Timeline UInt8) : (readMetaTimeoutOver cancelled slices now peer).isSome ↔
      (HeardIn cancelled slices now peer → WholeMeta peer) := by
  induction slices generalizing now peer with
  | zero => simp [readMetaTimeoutOver, HeardIn]
  | succ slices ih =>
    have htells := pollOver_tells waitSliceMs peer
    have hwhole := WholeMeta.pollOver waitSliceMs peer
    unfold readMetaTimeoutOver
    rcases hp : pollOver waitSliceMs peer with ⟨_ | _ | _, rest⟩ <;> rw [hp] at htells hwhole
    · obtain ⟨t, ht, hready⟩ := htells
      have hheard : HeardIn cancelled (slices + 1) now peer :=
        ⟨t, by rw [Nat.add_one_mul]; omega, hready, fun j hj hjt => by
          have := Nat.mul_le_mul_right waitSliceMs hj
          omega⟩
      exact (demuxReadMetaOver_isSome rest).trans
        ⟨fun h _ => hwhole.mp h, fun h => hwhole.mpr (h hheard)⟩
    · have hnone : readyAt peer = none := htells
      simp [HeardIn, hnone]
    · obtain ⟨hlate, hrest⟩ := htells
      cases hc : cancelled (now + waitSliceMs) with
      | true =>
        refine ⟨fun _ hheard => ?_, fun _ => rfl⟩
        -- it is ready after this slice, and this slice is cancelled
        obtain ⟨t, -, hready, hno⟩ := hheard
        have h := hno 1 (by omega) (by simpa using hlate t hready)
        rw [Nat.one_mul, hc] at h
        cases h
      | false =>
        simp only [Bool.false_eq_true, if_false]
        rw [ih, hwhole, HeardIn.slice hlate hrest hc]

/-- A `device_meta` it returns arrived whole. -/
theorem readMetaTimeoutOver_ok {cancelled : Nat → Bool} {slices now : Nat}
    {peer : Timeline UInt8} {m : RcDeviceMeta}
    (h : readMetaTimeoutOver cancelled slices now peer = some (.ok m)) :
    metaLen ≤ (sent peer).length ∧ m.magic = rcMetaMagic := by
  induction slices generalizing now peer with
  | zero => cases h
  | succ slices ih =>
    have hsent := (pollOver_keeps waitSliceMs peer).1
    unfold readMetaTimeoutOver at h
    rcases hp : pollOver waitSliceMs peer with ⟨_ | _ | _, rest⟩ <;> rw [hp] at h hsent
    · dsimp only [demuxReadMetaOver] at h
      split at h
      · obtain ⟨hlen, hmagic⟩ := rcDemuxReadMeta_ok (Option.some.inj h)
        rw [socketStream_bytes, hsent] at hlen
        exact ⟨hlen, hmagic⟩
      · cases h
    · cases h
    · dsimp only at h
      split at h
      · cases h
      · rw [← hsent]
        exact ih h

/-! ## Against the outcomes of the calls -/

/-- The calls of `readMetaTimeout` come out as the peer and the cancellation have it. -/
def Mirrors (env : Env) (cancelled : Nat → Bool) :
    Nat → Nat → Timeline UInt8 → RcClient → Prop
  | 0, _, _, _ => True
  | slices + 1, now, peer, c =>
    let polled := { c with os.calls := c.os.calls + 1 }
    env.poll c.os.calls = (pollOver waitSliceMs peer).1 ∧
      match pollOver waitSliceMs peer with
      | (.ready, peer) => env.stream polled.os.calls = socketStream peer
      | (.error, _) => True
      | (.timeout, peer) =>
        let r := (waitCancelled env).exec polled
        r.1 = .ok (cancelled (now + waitSliceMs)) ∧
          (cancelled (now + waitSliceMs) = false → Mirrors env cancelled slices (now + waitSliceMs) peer r.2)

theorem exec_ask {α : Type} (f : Nat → α) (c : RcClient) :
    (ask f).exec c = (.ok (f c.os.calls), { c with os.calls := c.os.calls + 1 }) := rfl

/-- A call that returns does what `readMetaTimeout` does. -/
theorem readMetaTimeout_mirrors {env : Env} {cancelled : Nat → Bool} {slices now : Nat}
    {peer : Timeline UInt8} {c : RcClient} {r : Except RcStatus RcDeviceMeta}
    (hm : Mirrors env cancelled slices now peer c)
    (h : readMetaTimeoutOver cancelled slices now peer = some r) :
    ((readMetaTimeout env slices).exec c).1 = r.map (fun _ => ()) ∧
      ∀ m, r = .ok m → ((readMetaTimeout env slices).exec c).2.deviceMeta = m := by
  induction slices generalizing now peer c with
  | zero =>
    cases h
    exact ⟨rfl, fun m hm => by cases hm⟩
  | succ slices ih =>
    obtain ⟨hpoll, hm⟩ := hm
    unfold readMetaTimeoutOver at h
    rw [readMetaTimeout, exec_bind, exec_ask, hpoll]
    rcases hp : pollOver waitSliceMs peer with ⟨_ | _ | _, rest⟩ <;> rw [hp] at h hm <;>
      dsimp only at h hm ⊢
    · unfold demuxReadMetaOver at h
      split at h
      · rw [readMeta, exec_bind, exec_ask]
        dsimp only
        rw [hm]
        cases h
        cases (rcDemuxReadMeta.exec (socketStream rest)).1 with
        | ok m => exact ⟨rfl, fun m' hm' => by cases hm'; rfl⟩
        | error w => exact ⟨rfl, fun m hm => by cases hm⟩
      · cases h
    · cases h
      exact ⟨rfl, fun m hm => by cases hm⟩
    · rw [exec_bind]
      rcases hr : (waitCancelled env).exec { c with os.calls := c.os.calls + 1 } with ⟨w, c'⟩
      rw [hr] at hm
      obtain ⟨rfl, hm⟩ := hm
      cases hgo : cancelled (now + waitSliceMs) with
      | true =>
        rw [hgo, if_pos rfl] at h
        cases h
        exact ⟨rfl, fun m hm => by cases hm⟩
      | false =>
        rw [hgo, if_neg (by decide)] at h
        exact ih (hm hgo) h

/-- It terminates, with a complete meta or an error. -/
def MetaAnswers (cancelled : Nat → Bool) (peer : Timeline UInt8) : Prop :=
  ∃ r, readMetaTimeoutOver cancelled (metaTimeoutMs / waitSliceMs) 0 peer = some r ∧
    ∀ m, r = .ok m → metaLen ≤ (sent peer).length ∧ m.magic = rcMetaMagic

/-- **It answers exactly when a peer that is heard in time, before the wait is cancelled,
goes on to send a whole `device_meta` or ends the connection.** -/
theorem read_meta_answers_iff (cancelled : Nat → Bool) (peer : Timeline UInt8) :
    MetaAnswers cancelled peer ↔
      (HeardIn cancelled (metaTimeoutMs / waitSliceMs) 0 peer → WholeMeta peer) := by
  rw [← readMetaTimeoutOver_isSome]
  refine ⟨?_, ?_⟩
  · rintro ⟨r, hr, -⟩
    rw [hr]
    rfl
  · intro h
    obtain ⟨r, hr⟩ := Option.isSome_iff_exists.mp h
    exact ⟨r, hr, fun m hm => readMetaTimeoutOver_ok (hm ▸ hr)⟩

/-- One byte after ten milliseconds and then nothing: the call never returns, though the
wait is cancelled from 200 ms on. -/
theorem read_meta_hangs :
    ¬ ∀ (cancelled : Nat → Bool) (peer : Timeline UInt8), MetaAnswers cancelled peer := by
  intro h
  obtain ⟨r, hr, -⟩ := h (fun now => decide (200 ≤ now)) [(10, .bytes [0x52])]
  cases hr

end RigControl.Core
