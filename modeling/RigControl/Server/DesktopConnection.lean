import RigControl.Server.Protocol
import RigControl.Server.Socket
import RigControl.Lib.Interleave

/-!
# Accepting the desktop's connections

`DesktopConnection.openTcp` over TCP. The server accepts one connection after the
other, in the order in which they were established; with a token it serves a
connection only if its first 32 bytes are the token, and closes it otherwise. The
channels are filled in the order video, audio, control.
-/

namespace RigControl.Server

open RigControl.Lib

/-- A TCP connection to the server: a name for it, and what its peer sends. -/
structure Connection where
  id : Nat
  input : InputStream
  deriving DecidableEq, Repr

structure Options where
  token : Option (List UInt8)
  audio : Bool
  control : Bool
  deriving DecidableEq, Repr

inductive Channel where
  | video | audio | control
  deriving DecidableEq, Repr

/-- The server socket: the connections that are established and not yet accepted,
those it registered for a channel, and those it closed. -/
structure Listener where
  backlog : List Connection
  registered : List (Channel × Connection)
  closed : List Connection
  deriving DecidableEq, Repr

/-- What the token check of `acceptAuthed` makes of a connection: its input behind
the token, or nothing. A read that ends early or throws fails the check. -/
def checkToken (token : List UInt8) (s : Connection) : Option InputStream :=
  match readExact SocketFault.restart Protocol.lanTokenLen s.input with
  | (.all buf, rest) => if buf = token then some rest else none
  | _ => none

/-- The loop of `acceptAuthed`: the connection it returns, the connections it closed,
and the backlog it leaves; none while `accept` waits. -/
def acceptFrom (token : Option (List UInt8)) :
    List Connection → Option Connection × List Connection × List Connection
  | [] => (none, [], [])
  | s :: backlog =>
    match token with
    | none => (some s, [], backlog)
    | some t =>
      match checkToken t s with
      | some rest => (some { s with input := rest }, [], backlog)
      | none =>
        let r := acceptFrom token backlog
        (r.1, s :: r.2.1, r.2.2)

/-- `register(acceptAuthed(options, what))`; false while the accept waits. -/
def acceptChannel (options : Options) (ch : Channel) (l : Listener) : Bool × Listener :=
  match acceptFrom options.token l.backlog with
  | (some s, dropped, backlog) =>
    (true, { backlog, registered := l.registered ++ [(ch, s)], closed := l.closed ++ dropped })
  | (none, dropped, backlog) => (false, { l with backlog, closed := l.closed ++ dropped })

/-- The channels `openTcp` fills, in its order. -/
def Options.channels (options : Options) : List Channel :=
  .video :: (if options.audio then [.audio] else []) ++ (if options.control then [.control] else [])

/-- `openTcp`; false while one of its accepts waits. -/
def openTcp (options : Options) (l : Listener) : Bool × Listener :=
  match acceptChannel options .video l with
  | (false, l) => (false, l)
  | (true, l) =>
    match if options.audio then acceptChannel options .audio l else (true, l) with
    | (false, l) => (false, l)
    | (true, l) => if options.control then acceptChannel options .control l else (true, l)

def Listener.new (backlog : List Connection) : Listener :=
  { backlog, registered := [], closed := [] }

/-! ## The token check -/

/-- The peer sends the token first. -/
def Connection.SendsToken (token : List UInt8) (s : Connection) : Prop := token <+: s.input.bytes

instance (token : List UInt8) (s : Connection) : Decidable (s.SendsToken token) :=
  inferInstanceAs (Decidable (token <+: s.input.bytes))

section
variable {token : List UInt8} (ht : token.length = Protocol.lanTokenLen)
include ht

theorem checkToken_some {s : Connection} (h : s.SendsToken token) :
    ∃ rest, checkToken token s = some rest ∧
      InputStream.bytes rest = s.input.bytes.drop Protocol.lanTokenLen := by
  obtain ⟨h1, h2⟩ := readExact_enough SocketFault.restart s.input (n := Protocol.lanTokenLen)
    (by rw [← ht]; exact h.length_le)
  have htake : (payload SocketFault.restart s.input).take Protocol.lanTokenLen = token := by
    rw [← ht]
    exact (List.prefix_iff_eq_take.mp h).symm
  rw [htake] at h1
  refine ⟨_, ?_, h2⟩
  rw [checkToken, show readExact _ _ _ = (Got.all token, _) from Prod.ext h1 rfl]
  simp

omit ht in
theorem checkToken_none {s : Connection} (h : ¬ s.SendsToken token) :
    checkToken token s = none := by
  rcases Nat.lt_or_ge s.input.bytes.length Protocol.lanTokenLen with hlt | hge
  · have h1 := (readExact_short SocketFault.restart s.input hlt).1
    rw [checkToken]
    rcases hr : readExact SocketFault.restart Protocol.lanTokenLen s.input with ⟨_ | _ | _, _⟩
    · simp [hr, Got.all?] at h1
    · rfl
    · rfl
  · obtain ⟨h1, -⟩ := readExact_enough SocketFault.restart s.input hge
    rw [checkToken, show readExact _ _ _ = (Got.all _, _) from Prod.ext h1 rfl]
    refine if_neg fun he => h ?_
    rw [Connection.SendsToken, ← he]
    exact List.take_prefix _ _

/-! ## Accepting -/

omit ht in
/-- Connections without the token are closed one after the other. -/
theorem acceptFrom_intruders {pre : List Connection} (hp : ∀ s ∈ pre, ¬ s.SendsToken token)
    (backlog : List Connection) :
    acceptFrom (some token) (pre ++ backlog) =
      ((acceptFrom (some token) backlog).1, pre ++ (acceptFrom (some token) backlog).2.1,
        (acceptFrom (some token) backlog).2.2) := by
  induction pre with
  | nil => rfl
  | cons s pre ih =>
    have hs := checkToken_none (hp s List.mem_cons_self)
    have ih := ih fun t h => hp t (List.mem_cons_of_mem s h)
    simp only [List.cons_append, acceptFrom, hs, ih]

/-- One accept: the next desktop connection, with the intruders before it closed. -/
theorem acceptFrom_interleave {d : Connection} {ds intruders backlog : List Connection}
    (h : Interleave (d :: ds) intruders backlog) (hd : d.SendsToken token)
    (hi : ∀ s ∈ intruders, ¬ s.SendsToken token) :
    ∃ rest pre intruders' backlog', intruders = pre ++ intruders' ∧
      backlog = pre ++ d :: backlog' ∧ Interleave ds intruders' backlog' ∧
      acceptFrom (some token) backlog = (some { d with input := rest }, pre, backlog') ∧
      InputStream.bytes rest = d.input.bytes.drop Protocol.lanTokenLen := by
  obtain ⟨pre, intruders', backlog', rfl, rfl, hrest⟩ := h.split_left
  obtain ⟨rest, hc, hbytes⟩ := checkToken_some ht hd
  refine ⟨rest, pre, intruders', backlog', rfl, rfl, hrest, ?_, hbytes⟩
  rw [acceptFrom_intruders fun s hs => hi s (List.mem_append_left _ hs)]
  simp only [acceptFrom, hc, List.append_nil]

/-- Fill the channels `chs` one after the other. -/
def fill (options : Options) : List Channel → Listener → Bool × Listener
  | [], l => (true, l)
  | ch :: chs, l =>
    match acceptChannel options ch l with
    | (true, l) => fill options chs l
    | (false, l) => (false, l)

omit ht in
theorem openTcp_eq_fill (options : Options) (l : Listener) :
    openTcp options l = fill options options.channels l := by
  cases ha : options.audio <;> cases hc : options.control <;>
    simp only [openTcp, Options.channels, ha, hc, fill, Bool.false_eq_true, ↓reduceIte,
      List.append_nil, List.cons_append, List.nil_append] <;>
    rcases acceptChannel options .video l with ⟨_ | _, l1⟩ <;> simp only []
  · rcases acceptChannel options .control l1 with ⟨_ | _, l2⟩ <;> rfl
  · rcases acceptChannel options .audio l1 with ⟨_ | _, l2⟩ <;> rfl
  · rcases acceptChannel options .audio l1 with ⟨_ | _, l2⟩ <;> simp only []
    rcases acceptChannel options .control l2 with ⟨_ | _, l3⟩ <;> rfl

/-- A registered connection as its channel sees it: who it is, and what it still
delivers. -/
def view (p : Channel × Connection) : Channel × Nat × List UInt8 :=
  (p.1, p.2.id, p.2.input.bytes)

/-- A desktop connection behind its token. -/
def served (p : Channel × Connection) : Channel × Nat × List UInt8 :=
  (p.1, p.2.id, p.2.input.bytes.drop Protocol.lanTokenLen)

/-- Filling channels takes as many desktop connections, in order, and closes the
intruders established before the last of them. -/
theorem fill_interleave {options : Options} (ho : options.token = some token)
    {chs : List Channel} {ds intruders : List Connection} {l : Listener}
    (hlen : ds.length = chs.length) (h : Interleave ds intruders l.backlog)
    (hd : ∀ d ∈ ds, d.SendsToken token) (hi : ∀ s ∈ intruders, ¬ s.SendsToken token) :
    ∃ met missed pre, intruders = met ++ missed ∧ l.backlog = pre ++ missed ∧
      Interleave ds met pre ∧ pre.getLast? = ds.getLast? ∧
      (fill options chs l).1 = true ∧
      (fill options chs l).2.registered.map view =
        l.registered.map view ++ (chs.zip ds).map served ∧
      (fill options chs l).2.closed = l.closed ++ met ∧
      (fill options chs l).2.backlog = missed := by
  induction chs generalizing ds intruders l with
  | nil =>
    obtain rfl : ds = [] := List.length_eq_zero_iff.mp hlen
    exact ⟨[], intruders, [], rfl, h.nil_left, .nil, rfl, rfl, by simp [fill], by simp [fill],
      h.nil_left⟩
  | cons ch chs ih =>
    obtain ⟨d, ds, rfl⟩ := List.exists_cons_of_length_eq_add_one hlen
    obtain ⟨rest, pre, intruders', backlog', rfl, hb, hrest, hacc, hbytes⟩ :=
      acceptFrom_interleave ht h (hd d List.mem_cons_self) hi
    have hch : acceptChannel options ch l = (true, ⟨backlog',
        l.registered ++ [(ch, { d with input := rest })], l.closed ++ pre⟩) := by
      simp only [acceptChannel, ho, hacc]
    obtain ⟨met, missed, pre', rfl, hb', hint, hlast, h1, h2, h3, h4⟩ := ih
      (l := ⟨backlog', l.registered ++ [(ch, { d with input := rest })], l.closed ++ pre⟩)
      (Nat.succ.inj hlen) hrest (fun e he => hd e (List.mem_cons_of_mem d he))
      (fun s hs => hi s (List.mem_append_right _ hs))
    refine ⟨pre ++ met, missed, pre ++ d :: pre', ?_, ?_, ?_, ?_, ?_⟩
    · rw [List.append_assoc]
    · rw [hb, show backlog' = _ from hb', List.append_assoc, List.cons_append]
    · exact (Interleave.left hint).append_right pre
    · rw [List.getLast?_append, List.getLast?_cons, List.getLast?_cons, hlast]
      rfl
    · simp only [fill, hch]
      refine ⟨h1, ?_, ?_, h4⟩
      · rw [h2]
        simp [view, served, hbytes]
      · rw [h3, List.append_assoc]

/-- **The desktop gets its channels.** However its connections are interleaved with
connections that do not send the token, `openTcp` returns, registers exactly the
desktop's connections, each for its own channel and with its stream intact behind
the 32 bytes of the token, and closes every intruder established before the last of
them. The intruders after it are not accepted any more. -/
theorem openTcp_desktop {options : Options} (ho : options.token = some token)
    {desktop intruders backlog : List Connection}
    (hlen : desktop.length = options.channels.length) (h : Interleave desktop intruders backlog)
    (hd : ∀ d ∈ desktop, d.SendsToken token) (hi : ∀ s ∈ intruders, ¬ s.SendsToken token) :
    ∃ met missed pre, intruders = met ++ missed ∧ backlog = pre ++ missed ∧
      Interleave desktop met pre ∧ pre.getLast? = desktop.getLast? ∧
      (openTcp options (.new backlog)).1 = true ∧
      (openTcp options (.new backlog)).2.registered.map view =
        (options.channels.zip desktop).map served ∧
      (openTcp options (.new backlog)).2.closed = met ∧
      (openTcp options (.new backlog)).2.backlog = missed := by
  rw [openTcp_eq_fill]
  exact fill_interleave ht ho (l := .new backlog) hlen h hd hi

end

def demoToken : List UInt8 := List.replicate 32 97

/-- A connection that sends the token and then `9`, in two pieces. -/
def desktopConn (id : Nat) : Connection :=
  ⟨id, [.data (demoToken.take 20), .data (demoToken.drop 20 ++ [9])]⟩

/-- A connection that sends one byte and then stays silent until the read times out. -/
def silentConn (id : Nat) : Connection := ⟨id, [.data [97], .fault .timeout]⟩

theorem openTcp_desktop_silent :
    (openTcp ⟨some demoToken, false, true⟩
      (.new [silentConn 1, desktopConn 2, silentConn 3, desktopConn 4])).2.registered.map view =
      [(.video, 2, [9]), (.control, 4, [9])] := by
  obtain ⟨-, -, -, -, -, -, -, -, h, -⟩ := @openTcp_desktop demoToken rfl
    ⟨some demoToken, false, true⟩ rfl [desktopConn 2, desktopConn 4]
    [silentConn 1, silentConn 3] _ rfl (.right (.left (.right (.left .nil)))) (by decide) (by decide)
  exact h

/-- An intruder that connects after the last desktop connection is neither registered
nor closed: `openTcp` does not accept it. -/
theorem openTcp_late_intruder :
    (desktopConn 1).SendsToken demoToken ∧ ¬ (silentConn 2).SendsToken demoToken ∧
      Interleave [desktopConn 1] [silentConn 2] [desktopConn 1, silentConn 2] ∧
      (openTcp ⟨some demoToken, false, false⟩ (.new [desktopConn 1, silentConn 2])).2.closed = [] ∧
      (openTcp ⟨some demoToken, false, false⟩ (.new [desktopConn 1, silentConn 2])).2.backlog =
        [silentConn 2] := by
  refine ⟨by decide, by decide, .left (.right .nil), by decide, by decide⟩

end RigControl.Server
