import RigControl.Core.Net
import RigControl.Lib.Lts

/-!
# Relaying a connection

`net.c` of the agent: `stream_open_upstream`, `pump` and what `conn_thread` does with
them. A client of a stream port may come before the server in the guest listens: adb
then accepts the upstream connection and closes it again. Until an upstream is
confirmed (it sends something, or keeps quiet for 300 ms) what the client has sent is
kept in `pre`, and every new attempt begins with a replay of it.

A step is one iteration of a loop; a label says what its system calls return. A
write that does not return is an iteration that does not end, so it is no step.
-/

namespace RigControl.Agent

open RigControl.Lib
open RigControl.Core (Errno)

def preCap : Nat := 4096

def deadlineMs : Int := 10000
def quietMs : Int := 300

/-- The buffer of `conn_thread`, filled up to `pre_len`. -/
structure Pre where
  bytes : List UInt8
  fits : bytes.length ≤ preCap
  deriving DecidableEq

def Pre.empty : Pre := ⟨[], Nat.zero_le _⟩

/-- What it holds after a chunk, if there is room for the chunk. -/
def Pre.push (pre : Pre) (bs : List UInt8) : Option Pre :=
  if h : (pre.bytes ++ bs).length ≤ preCap then some ⟨pre.bytes ++ bs, h⟩ else none

theorem Pre.push_eq_some {pre pre' : Pre} {bs : List UInt8} (h : pre.push bs = some pre') :
    pre'.bytes = pre.bytes ++ bs := by
  unfold Pre.push at h
  split at h
  · cases h
    rfl
  · cases h

/-- What a `read` returns. -/
inductive ReadRet where
  | data (bs : List UInt8)
  | eof
  | error
  deriving DecidableEq, Repr

/-- A read into a buffer of `cap` bytes. -/
def ReadRet.Into (cap : Nat) : ReadRet → Prop
  | .data bs => bs ≠ [] ∧ bs.length ≤ cap
  | _ => True

instance (cap : Nat) (r : ReadRet) : Decidable (r.Into cap) := by
  cases r <;> simp only [ReadRet.Into] <;> infer_instance

/-- What a `poll` of the client and the upstream returns. -/
inductive PollRet where
  | failed (e : Errno)
  | timeout
  | ready (client up : Bool)
  deriving DecidableEq, Repr

/-- `write_full` of `util.c`. -/
def writeFull (buf : List UInt8) (rs : List (WriteRet Errno)) : List UInt8 × Wrote :=
  writeAll Errno.restart buf rs

/-- One upstream connection: what is written to it, what is read from it, and what of
that is written to the client. -/
structure Attempt where
  written : List UInt8
  received : List UInt8
  relayed : List UInt8
  deriving DecidableEq, Repr

def Attempt.fresh : Attempt := ⟨[], [], []⟩

/-- Where the thread is: before its only `connect` (an adb port), at the head of the
loop of `stream_open_upstream`, in the loop that waits for a confirmation since `t0`,
in the loop of `pump`, or behind it all, with the upstream that it had. -/
inductive RelayPhase where
  | dialing | connecting
  | confirming (up : Attempt) (t0 : Int)
  | pumping (up : Attempt)
  | ended (up : Option Attempt)
  deriving DecidableEq

/-- A connection of a client. `closed` has the upstreams that `stream_open_upstream`
did not return, in the order of the attempts. -/
structure Relay where
  phase : RelayPhase
  tStart : Int
  pre : Pre
  closed : List Attempt
  fromClient : List UInt8
  toClient : List UInt8
  /-- A write to the client has failed. -/
  clientFailed : Bool
  deriving DecidableEq

def Relay.start (group : Bool) (tStart : Int) : Relay :=
  ⟨if group then .connecting else .dialing, tStart, .empty, [], [], [], false⟩

inductive Verdict where
  | waiting | confirmed | dropped | gaveUp
  deriving DecidableEq, Repr

/-- What a step's calls return. -/
inductive RelayAct where
  | dial (ok : Bool)
  | connect (ok stop : Bool) (now : Int) (replay : List (WriteRet Errno))
  | confirm (now : Int) (poll : PollRet) (read : ReadRet) (writes : List (WriteRet Errno))
      (stop : Bool) (after : Int)
  | pump (poll : PollRet) (stop : Bool) (client : ReadRet) (upWrites : List (WriteRet Errno))
      (up : ReadRet) (clientWrites : List (WriteRet Errno))
  deriving DecidableEq

namespace Relay

def expired (s : Relay) (now : Int) : Bool := s.tStart + deadlineMs ≤ now

/-- Bytes of `up` are read and written to the client. -/
def toClientFull (s : Relay) (up : Attempt) (bs : List UInt8) (rs : List (WriteRet Errno)) :
    Option (Relay × Attempt × Bool) :=
  let (sent, w) := writeFull bs rs
  let s' := { s with toClient := s.toClient ++ sent, clientFailed := s.clientFailed || w = .failed }
  let up' := { up with received := up.received ++ bs, relayed := up.relayed ++ sent }
  if w = .blocked then none else some (s', up', w = .done)

/-- Bytes of the client, already read, are written to `up`. -/
def toUpFull (s : Relay) (up : Attempt) (bs : List UInt8) (rs : List (WriteRet Errno)) :
    Option (Relay × Attempt × Bool) :=
  let (sent, w) := writeFull bs rs
  let up' := { up with written := up.written ++ sent }
  if w = .blocked then none else some (s, up', w = .done)

/-- One iteration of the loop of `stream_open_upstream`, up to the loop inside. -/
def connect (s : Relay) (ok stop : Bool) (now : Int) (replay : List (WriteRet Errno)) :
    Option Relay :=
  if !ok then
    some (if stop || s.expired now then { s with phase := .ended none } else s)
  else
    -- with nothing to replay the write is left out, and does as much
    match s.toUpFull .fresh s.pre.bytes replay with
    | none => none
    | some (s, up, true) => some { s with phase := .confirming up now }
    | some (s, up, false) => some { s with closed := s.closed ++ [up] }

/-- One iteration of the loop that waits for a confirmation, up to its verdict. -/
def confirmOnce (s : Relay) (up : Attempt) (t0 now : Int) (poll : PollRet) (read : ReadRet)
    (writes : List (WriteRet Errno)) : Option (Relay × Attempt × Verdict) :=
  if quietMs - (now - t0) ≤ 0 then some (s, up, .confirmed)
  else
    match poll with
    | .failed .eintr => some (s, up, .waiting)
    | .failed .other => some (s, up, .gaveUp)
    | .timeout => some (s, up, .confirmed)
    | .ready _ true =>
      if read.Into 4096 then
        match read with
        | .data bs =>
          (s.toClientFull up bs writes).map fun (s, up, ok) =>
            (s, up, if ok then .confirmed else .gaveUp)
        | _ => some (s, up, .dropped)
      else none
    | .ready true false =>
      if read.Into 1024 then
        match read with
        | .data bs =>
          let s := { s with fromClient := s.fromClient ++ bs }
          match s.pre.push bs with
          | none => some (s, up, .gaveUp)
          | some pre =>
            (s.toUpFull up bs writes).map fun (s, up, ok) =>
              if ok then ({ s with pre := pre }, up, .waiting) else (s, up, .gaveUp)
        | _ => some (s, up, .gaveUp)
      else none
    | .ready false false => some (s, up, .waiting)

/-- What follows from the verdict. -/
def settle (s : Relay) (up : Attempt) (t0 : Int) (stop : Bool) (after : Int) : Verdict → Relay
  | .waiting => { s with phase := .confirming up t0 }
  | .confirmed => { s with phase := .pumping up }
  | v =>
    { s with
      closed := s.closed ++ [up]
      phase := if v = .gaveUp || stop || s.expired after then .ended none else .connecting }

/-- The client's turn in an iteration of `pump`; the flag says whether to go on. -/
def pumpClient (s : Relay) (up : Attempt) (ready : Bool) (read : ReadRet)
    (rs : List (WriteRet Errno)) : Option (Relay × Attempt × Bool) :=
  if !ready then some (s, up, true)
  else if read.Into 65536 then
    match read with
    | .data bs => { s with fromClient := s.fromClient ++ bs }.toUpFull up bs rs
    | _ => some (s, up, false)
  else none

/-- The upstream's turn. -/
def pumpUp (s : Relay) (up : Attempt) (ready : Bool) (read : ReadRet)
    (rs : List (WriteRet Errno)) : Option (Relay × Attempt × Bool) :=
  if !ready then some (s, up, true)
  else if read.Into 65536 then
    match read with
    | .data bs => s.toClientFull up bs rs
    | _ => some (s, up, false)
  else none

def pumpOn (s : Relay) (up : Attempt) (more : Bool) : Relay :=
  { s with phase := if more then .pumping up else .ended (some up) }

/-- One iteration of `pump`. -/
def pump (s : Relay) (up : Attempt) (poll : PollRet) (stop : Bool) (client : ReadRet)
    (upWrites : List (WriteRet Errno)) (upRead : ReadRet) (clientWrites : List (WriteRet Errno)) :
    Option Relay :=
  match poll with
  | .failed .eintr => some s
  | .failed .other => some (s.pumpOn up false)
  | .timeout => some (s.pumpOn up !stop)
  | .ready c u =>
    if stop then some (s.pumpOn up false)
    else
      (s.pumpClient up c client upWrites).bind fun (s, up, more) =>
        if more then (s.pumpUp up u upRead clientWrites).map fun (s, up, more) => s.pumpOn up more
        else some (s.pumpOn up false)

end Relay

def relayStep (s : Relay) (a : RelayAct) : Option Relay :=
  match s.phase, a with
  | .dialing, .dial ok =>
    some { s with phase := if ok then .pumping .fresh else .ended none }
  | .connecting, .connect ok stop now replay => s.connect ok stop now replay
  | .confirming up t0, .confirm now poll read writes stop after =>
    (s.confirmOnce up t0 now poll read writes).map fun (s, up, v) => s.settle up t0 stop after v
  | .pumping up, .pump poll stop client upWrites upRead clientWrites =>
    s.pump up poll stop client upWrites upRead clientWrites
  | _, _ => none

/-- The relay of a connection to a stream port, or to an adb port without a `Group`. -/
def relayLts (group : Bool) (tStart : Int) : Lts Relay RelayAct :=
  { init := .start group tStart, step := relayStep }

/-! ## In step with the client -/

namespace Attempt

variable (up : Attempt) (fromClient toClient : List UInt8)

/-- The upstream has all that was read from the client, and the client all that was
read from the upstream. -/
structure Level : Prop where
  written : up.written = fromClient
  toClient : toClient = up.relayed
  relayed : up.relayed = up.received

/-- Each has a prefix of it. -/
structure Behind : Prop where
  written : up.written <+: fromClient
  toClient : toClient = up.relayed
  relayed : up.relayed <+: up.received

/-- An upstream that was closed for another attempt: it has a prefix of what was read
from the client, and the client nothing of it. -/
structure GivenUp : Prop where
  written : up.written <+: fromClient
  relayed : up.relayed = []

variable {up : Attempt} {fromClient toClient : List UInt8}

theorem Level.behind (h : up.Level fromClient toClient) : up.Behind fromClient toClient :=
  ⟨h.written ▸ List.prefix_rfl, h.toClient, h.relayed ▸ List.prefix_rfl⟩

theorem Level.givenUp (h : up.Level fromClient []) : up.GivenUp fromClient :=
  ⟨h.behind.written, h.toClient.symm⟩

/-- Bytes of the client of which the upstream gets all or a part. -/
theorem Level.sendUp (h : up.Level fromClient toClient) {bs sent : List UInt8} (hsent : sent <+: bs) :
    Attempt.Behind { up with written := up.written ++ sent } (fromClient ++ bs) toClient where
  written := by
    simp only [h.written]
    exact (List.prefix_append_right_inj _).mpr hsent
  toClient := h.toClient
  relayed := h.behind.relayed

theorem Level.sendUp_all (h : up.Level fromClient toClient) (bs : List UInt8) :
    Attempt.Level { up with written := up.written ++ bs } (fromClient ++ bs) toClient where
  written := by simp only [h.written]
  toClient := h.toClient
  relayed := h.relayed

/-- Bytes of the upstream of which the client gets all or a part. -/
theorem Level.sendDown (h : up.Level fromClient toClient) {bs sent : List UInt8} (hsent : sent <+: bs) :
    Attempt.Behind { up with received := up.received ++ bs, relayed := up.relayed ++ sent }
      fromClient (toClient ++ sent) where
  written := h.behind.written
  toClient := by simp only [h.toClient]
  relayed := by
    simp only [h.relayed]
    exact (List.prefix_append_right_inj _).mpr hsent

theorem Level.sendDown_all (h : up.Level fromClient toClient) (bs : List UInt8) :
    Attempt.Level { up with received := up.received ++ bs, relayed := up.relayed ++ bs }
      fromClient (toClient ++ bs) where
  written := h.written
  toClient := by simp only [h.toClient]
  relayed := by simp only [h.relayed]

end Attempt

namespace Relay

open Attempt

/-- Every upstream that was closed without being returned was given up. -/
def AllGivenUp (closed : List Attempt) (fromClient : List UInt8) : Prop :=
  ∀ a ∈ closed, a.GivenUp fromClient

/-- Where client and upstream stand between two iterations, and at the end. -/
def InOrder (s : Relay) : Prop :=
  match s.phase with
  | .dialing => s.closed = [] ∧ s.fromClient = [] ∧ s.toClient = []
  | .connecting =>
    AllGivenUp s.closed s.fromClient ∧ s.toClient = [] ∧ s.pre.bytes = s.fromClient
  | .confirming up _ =>
    AllGivenUp s.closed s.fromClient ∧ up.Level s.fromClient s.toClient ∧ s.toClient = [] ∧
      s.pre.bytes = s.fromClient
  | .pumping up => AllGivenUp s.closed s.fromClient ∧ up.Level s.fromClient s.toClient
  | .ended (some up) => AllGivenUp s.closed s.fromClient ∧ up.Behind s.fromClient s.toClient
  | .ended none =>
    (AllGivenUp s.closed s.fromClient ∧ s.toClient = []) ∨
      (s.clientFailed = true ∧ ∃ closed up, s.closed = closed ++ [up] ∧
        AllGivenUp closed s.fromClient ∧ up.Behind s.fromClient s.toClient)

variable {s s' : Relay} {up up' : Attempt}

theorem AllGivenUp.mono {closed : List Attempt} {fromClient fromClient' : List UInt8}
    (h : AllGivenUp closed fromClient) (hle : fromClient <+: fromClient') :
    AllGivenUp closed fromClient' :=
  fun a ha => ⟨(h a ha).written.trans hle, (h a ha).relayed⟩

theorem AllGivenUp.snoc {closed : List Attempt} {fromClient : List UInt8}
    (h : AllGivenUp closed fromClient) (hup : up.GivenUp fromClient) :
    AllGivenUp (closed ++ [up]) fromClient := by
  intro a ha
  rcases List.mem_append.mp ha with ha | ha
  · exact h a ha
  · exact List.mem_singleton.mp ha ▸ hup

theorem toUpFull_eq_some {bs : List UInt8} {rs : List (WriteRet Errno)} {ok : Bool}
    (h : s.toUpFull up bs rs = some (s', up', ok)) :
    s' = s ∧ ∃ sent, up' = { up with written := up.written ++ sent } ∧ sent <+: bs ∧
      (ok = true → sent = bs) := by
  simp only [toUpFull] at h
  split at h
  · cases h
  · cases h
    refine ⟨rfl, _, rfl, writeAll_prefix _ _ _, fun hok => ?_⟩
    exact writeAll_done _ (of_decide_eq_true hok)

theorem toClientFull_eq_some {bs : List UInt8} {rs : List (WriteRet Errno)} {ok : Bool}
    (h : s.toClientFull up bs rs = some (s', up', ok)) :
    ∃ sent failed, s' = { s with toClient := s.toClient ++ sent, clientFailed := failed } ∧
      up' = { up with received := up.received ++ bs, relayed := up.relayed ++ sent } ∧
      sent <+: bs ∧ (ok = true → sent = bs) ∧ (ok = false → failed = true) := by
  simp only [toClientFull] at h
  split at h
  · cases h
  · rename_i hb
    cases h
    refine ⟨_, _, rfl, rfl, writeAll_prefix _ _ _, fun hok => ?_, fun hok => ?_⟩
    · exact writeAll_done _ (of_decide_eq_true hok)
    · revert hb hok
      cases (writeFull bs rs).2 <;> simp

/-- Where an attempt stands with a verdict on it. -/
def Judged (s : Relay) (up : Attempt) : Verdict → Prop
  | .waiting | .dropped =>
    up.Level s.fromClient s.toClient ∧ s.toClient = [] ∧ s.pre.bytes = s.fromClient
  | .confirmed => up.Level s.fromClient s.toClient
  | .gaveUp => up.Behind s.fromClient s.toClient ∧ (s.toClient = [] ∨ s.clientFailed = true)

theorem inOrder_connect {ok stop : Bool} {now : Int} {replay : List (WriteRet Errno)}
    (hphase : s.phase = .connecting) (hclosed : AllGivenUp s.closed s.fromClient)
    (h0 : s.toClient = []) (hpre : s.pre.bytes = s.fromClient)
    (h : s.connect ok stop now replay = some s') : s'.InOrder := by
  unfold connect at h
  split at h
  · cases h
    split
    · exact .inl ⟨hclosed, h0⟩
    · simp only [InOrder, hphase]
      exact ⟨hclosed, h0, hpre⟩
  · split at h
    · cases h
    · rename_i s1 up hw
      obtain ⟨rfl, sent, rfl, -, hok⟩ := toUpFull_eq_some hw
      cases h
      refine ⟨hclosed, ⟨?_, h0, rfl⟩, h0, hpre⟩
      show [] ++ sent = s1.fromClient
      rw [hok rfl, hpre, List.nil_append]
    · rename_i s1 up hw
      obtain ⟨rfl, sent, rfl, hsent, -⟩ := toUpFull_eq_some hw
      cases h
      simp only [InOrder, hphase]
      exact ⟨hclosed.snoc ⟨hpre ▸ hsent, rfl⟩, h0, hpre⟩

theorem judged_confirmOnce {t0 now : Int} {poll : PollRet} {read : ReadRet}
    {writes : List (WriteRet Errno)} {v : Verdict} (hl : up.Level s.fromClient s.toClient)
    (h0 : s.toClient = []) (hpre : s.pre.bytes = s.fromClient)
    (h : s.confirmOnce up t0 now poll read writes = some (s', up', v)) :
    s'.Judged up' v ∧ s'.closed = s.closed ∧ s.fromClient <+: s'.fromClient := by
  simp only [confirmOnce] at h
  split at h
  · cases h
    exact ⟨hl, rfl, List.prefix_rfl⟩
  split at h
  · cases h
    exact ⟨⟨hl, h0, hpre⟩, rfl, List.prefix_rfl⟩
  · cases h
    exact ⟨⟨hl.behind, .inl h0⟩, rfl, List.prefix_rfl⟩
  · cases h
    exact ⟨hl, rfl, List.prefix_rfl⟩
  · split at h
    · split at h
      · obtain ⟨⟨s1, up1, ok⟩, hw, heq⟩ := Option.map_eq_some_iff.mp h
        cases heq
        obtain ⟨sent, failed, rfl, rfl, hsent, hok, hfail⟩ := toClientFull_eq_some hw
        cases ok with
        | true =>
          rw [hok rfl]
          exact ⟨hl.sendDown_all _, rfl, List.prefix_rfl⟩
        | false => exact ⟨⟨hl.sendDown hsent, .inr (hfail rfl)⟩, rfl, List.prefix_rfl⟩
      · cases h
        exact ⟨⟨hl, h0, hpre⟩, rfl, List.prefix_rfl⟩
    · cases h
  · split at h
    · split at h
      · rename_i bs _
        split at h
        · cases h
          have hb := hl.sendUp (List.nil_prefix (l := bs))
          rw [List.append_nil] at hb
          exact ⟨⟨hb, .inl h0⟩, rfl, List.prefix_append _ _⟩
        · rename_i pre hpush
          obtain ⟨⟨s1, up1, ok⟩, hw, heq⟩ := Option.map_eq_some_iff.mp h
          obtain ⟨rfl, sent, rfl, hsent, hok⟩ := toUpFull_eq_some hw
          cases ok with
          | true =>
            cases heq
            rw [hok rfl]
            refine ⟨⟨hl.sendUp_all bs, h0, ?_⟩, rfl, List.prefix_append _ _⟩
            show pre.bytes = s.fromClient ++ bs
            rw [Pre.push_eq_some hpush, hpre]
          | false =>
            cases heq
            exact ⟨⟨hl.sendUp hsent, .inl h0⟩, rfl, List.prefix_append _ _⟩
      · cases h
        exact ⟨⟨hl.behind, .inl h0⟩, rfl, List.prefix_rfl⟩
    · cases h
  · cases h
    exact ⟨⟨hl, h0, hpre⟩, rfl, List.prefix_rfl⟩

theorem inOrder_settle {t0 : Int} {stop : Bool} {after : Int} {v : Verdict}
    (hclosed : AllGivenUp s.closed s.fromClient) (hv : s.Judged up v) :
    (s.settle up t0 stop after v).InOrder := by
  cases v with
  | waiting => exact ⟨hclosed, hv⟩
  | confirmed => exact ⟨hclosed, hv⟩
  | dropped =>
    obtain ⟨hl, h0, hpre⟩ := hv
    have hall : AllGivenUp (s.closed ++ [up]) s.fromClient := hclosed.snoc (h0 ▸ hl).givenUp
    by_cases hend : (stop || s.expired after) = true
    · simp only [settle, reduceCtorEq, decide_false, Bool.false_or, hend, ↓reduceIte]
      exact .inl ⟨hall, h0⟩
    · simp only [settle, reduceCtorEq, decide_false, Bool.false_or, hend, ↓reduceIte]
      exact ⟨hall, h0, hpre⟩
  | gaveUp =>
    obtain ⟨hb, h0 | hfail⟩ := hv
    · exact .inl ⟨hclosed.snoc ⟨hb.written, (h0 ▸ hb.toClient).symm⟩, h0⟩
    · exact .inr ⟨hfail, s.closed, up, rfl, hclosed, hb⟩

/-- What a turn of `pump` leaves. -/
def Pumped (s s' : Relay) (up : Attempt) (more : Bool) : Prop :=
  s'.closed = s.closed ∧ s.fromClient <+: s'.fromClient ∧ up.Behind s'.fromClient s'.toClient ∧
    (more = true → up.Level s'.fromClient s'.toClient)

theorem pumped_same (hl : up.Level s.fromClient s.toClient) (more : Bool) : s.Pumped s up more :=
  ⟨rfl, List.prefix_rfl, hl.behind, fun _ => hl⟩

theorem pumped_client {ready : Bool} {read : ReadRet} {rs : List (WriteRet Errno)} {more : Bool}
    (hl : up.Level s.fromClient s.toClient)
    (h : s.pumpClient up ready read rs = some (s', up', more)) : s.Pumped s' up' more := by
  unfold pumpClient at h
  split at h
  · cases h
    exact pumped_same hl true
  split at h
  · split at h
    · obtain ⟨rfl, sent, rfl, hsent, hok⟩ := toUpFull_eq_some h
      refine ⟨rfl, List.prefix_append _ _, hl.sendUp hsent, fun hmore => ?_⟩
      rw [hok hmore]
      exact hl.sendUp_all _
    · cases h
      exact pumped_same hl false
  · cases h

theorem pumped_up {ready : Bool} {read : ReadRet} {rs : List (WriteRet Errno)} {more : Bool}
    (hl : up.Level s.fromClient s.toClient)
    (h : s.pumpUp up ready read rs = some (s', up', more)) : s.Pumped s' up' more := by
  unfold pumpUp at h
  split at h
  · cases h
    exact pumped_same hl true
  split at h
  · split at h
    · obtain ⟨sent, failed, rfl, rfl, hsent, hok, -⟩ := toClientFull_eq_some h
      refine ⟨rfl, List.prefix_rfl, hl.sendDown hsent, fun hmore => ?_⟩
      rw [hok hmore]
      exact hl.sendDown_all _
    · cases h
      exact pumped_same hl false
  · cases h

theorem inOrder_pumpOn {more : Bool} (hclosed : AllGivenUp s.closed s.fromClient)
    (h : s.Pumped s' up more) : (s'.pumpOn up more).InOrder := by
  obtain ⟨hcl, hfrom, hb, hl⟩ := h
  have hall : AllGivenUp s'.closed s'.fromClient := hcl ▸ hclosed.mono hfrom
  cases more with
  | true => exact ⟨hall, hl rfl⟩
  | false => exact ⟨hall, hb⟩

theorem inOrder_pump {poll : PollRet} {stop : Bool} {client upRead : ReadRet}
    {upWrites clientWrites : List (WriteRet Errno)} (hphase : s.phase = .pumping up)
    (hclosed : AllGivenUp s.closed s.fromClient) (hl : up.Level s.fromClient s.toClient)
    (h : s.pump up poll stop client upWrites upRead clientWrites = some s') : s'.InOrder := by
  have hon : ∀ more, (s.pumpOn up more).InOrder := fun more =>
    inOrder_pumpOn hclosed (pumped_same hl more)
  unfold pump at h
  split at h
  · cases h
    simp only [InOrder, hphase]
    exact ⟨hclosed, hl⟩
  · cases h
    exact hon false
  · cases h
    exact hon _
  · rename_i c u
    split at h
    · cases h
      exact hon false
    · obtain ⟨⟨s1, up1, more1⟩, h1, h⟩ := Option.bind_eq_some_iff.mp h
      have hp1 := pumped_client hl h1
      cases more1 with
      | false =>
        cases h
        exact inOrder_pumpOn hclosed hp1
      | true =>
        obtain ⟨⟨s2, up2, more2⟩, h2, heq⟩ := Option.map_eq_some_iff.mp h
        cases heq
        obtain ⟨hcl, hfrom, -, hlev⟩ := hp1
        have hall : AllGivenUp s1.closed s1.fromClient := hcl ▸ hclosed.mono hfrom
        exact inOrder_pumpOn hall (pumped_up (hlev rfl) h2)

theorem inOrder_step {a : RelayAct} (hs : s.InOrder) (h : relayStep s a = some s') :
    s'.InOrder := by
  unfold relayStep at h
  split at h
  · rename_i ok hphase
    cases h
    simp only [InOrder, hphase] at hs
    obtain ⟨hcl, hfrom, h0⟩ := hs
    have hall : AllGivenUp s.closed s.fromClient := by simp [AllGivenUp, hcl]
    cases ok with
    | true => exact ⟨hall, hfrom.symm, h0, rfl⟩
    | false => exact .inl ⟨hall, h0⟩
  · rename_i hphase
    simp only [InOrder, hphase] at hs
    exact inOrder_connect hphase hs.1 hs.2.1 hs.2.2 h
  · rename_i up t0 _ _ _ _ _ _ hphase
    simp only [InOrder, hphase] at hs
    obtain ⟨hall, hl, h0, hpre⟩ := hs
    obtain ⟨⟨s1, up1, v⟩, hc, heq⟩ := Option.map_eq_some_iff.mp h
    cases heq
    obtain ⟨hv, hcl, hfrom⟩ := judged_confirmOnce hl h0 hpre hc
    exact inOrder_settle (hcl ▸ hall.mono hfrom) hv
  · rename_i up _ _ _ _ _ _ hphase
    simp only [InOrder, hphase] at hs
    exact inOrder_pump hphase hs.1 hs.2 h
  · cases h

theorem inOrder_start (group : Bool) (tStart : Int) : (start group tStart).InOrder := by
  cases group
  · exact ⟨rfl, rfl, rfl⟩
  · exact ⟨by simp [AllGivenUp, start], rfl, rfl⟩

end Relay

/-- **Nothing is lost, repeated or reordered.** After every iteration that does not end
the relay the upstream at hand has exactly what was read from the client and the client
what was read from the upstream; after the one that ends it each has a prefix of it.
No byte of an attempt that was given up for another reaches the client: bytes of an
upstream that is not returned do so only when a write to the client fails, which ends
the relay. -/
theorem relay_in_order {group : Bool} {tStart : Int} {as : List RelayAct} {s : Relay}
    (h : (relayLts group tStart).run (relayLts group tStart).init as = some s) : s.InOrder :=
  Lts.Reachable.invariant (I := Relay.InOrder) (Relay.inOrder_start group tStart)
    (fun _ _ _ hs hstep => Relay.inOrder_step hs hstep) ⟨as, h⟩

/-- The client sends one byte, the first attempt is closed by adb, the second gets the
byte again and answers. -/
def replayRun : List RelayAct :=
  [.connect true false 0 [], .confirm 10 (.ready true false) (.data [7]) [.wrote 1] false 0,
    .confirm 20 (.ready false true) .eof [] false 20, .connect true false 170 [.wrote 1],
    .confirm 180 (.ready false true) (.data [8]) [.wrote 1] false 0]

theorem relay_in_order_replay :
    ∃ s, (relayLts true 0).run (.start true 0) replayRun = some s ∧
      s.phase = .pumping ⟨[7], [8], [8]⟩ ∧ s.InOrder :=
  ⟨_, rfl, rfl, @relay_in_order true 0 replayRun _ rfl⟩

/-- An upstream sends two bytes; the client takes one and is gone. -/
def brokenRun : List RelayAct :=
  [.connect true false 0 [],
    .confirm 10 (.ready false true) (.data [7, 8]) [.wrote 1, .fault .other] false 10]

/-- The attempt is closed and not returned, and a byte of it has reached the client. -/
theorem relay_closed_attempt_seen :
    ∃ s, (relayLts true 0).run (.start true 0) brokenRun = some s ∧ s.phase = .ended none ∧
      s.toClient = [7] ∧ ∃ a ∈ s.closed, a.relayed = [7] :=
  ⟨_, rfl, rfl, rfl, _, .head _, rfl⟩

end RigControl.Agent
