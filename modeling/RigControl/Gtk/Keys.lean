import Mathlib.Data.Nat.Bitwise
import RigControl.Core.Control
import RigControl.Lib.History

/-!
# Key events of a session window

`on_key_pressed` and `on_key_released` of `input.c`. A key with an Android keycode goes
out as KEY, anything else as TEXT; `keys_down` keeps which keycodes are down. Both
handlers look the keycode up by the keyval of their own event, and a keyval changes with
the modifiers: a key may go up under a keyval that has no keycode, or another one.
`keys_unstuck_iff` says when every keycode comes up again.

The calls are those of `rc_client_send_key` and `rc_client_send_text`, oldest first.
-/

namespace RigControl.Gtk

open RigControl.Core RigControl.Lib

/-- What GDK and GLib know of keyvals. -/
structure Gdk where
  keyvalToLower : UInt32 → UInt32
  keyvalToUnicode : UInt32 → UInt32
  unicharToUtf8 : UInt32 → CStr

def gdkShiftMask : UInt32 := 1
def gdkControlMask : UInt32 := 4
def gdkAltMask : UInt32 := 8

def gdkStateToAmeta (state : UInt32) : UInt32 :=
  (if state &&& gdkShiftMask ≠ 0 then 0x1 ||| 0x40 else 0) |||
  (if state &&& gdkAltMask ≠ 0 then 0x02 ||| 0x10 else 0) |||
  (if state &&& gdkControlMask ≠ 0 then 0x1000 ||| 0x2000 else 0)

/-- Letters, digits and the space bar; none is `-1`. -/
def gdkAlnumToAndroidKey (gdk : Gdk) (keyval : UInt32) : Option Nat :=
  let kv := (gdk.keyvalToLower keyval).toNat
  if 0x61 ≤ kv ∧ kv ≤ 0x7a then some (29 + (kv - 0x61))
  else if 0x30 ≤ kv ∧ kv ≤ 0x39 then some (7 + (kv - 0x30))
  else if kv = 0x20 then some 62
  else none

/-- Keys to move and to edit, by the numbers of `gdkkeysyms.h`. -/
def editKeys : List (UInt32 × Nat) :=
  [(0xff0d, 66), (0xff8d, 66), (0xff08, 67), (0xffff, 112), (0xff09, 61), (0xff1b, 4),
    (0xff51, 21), (0xff53, 22), (0xff52, 19), (0xff54, 20), (0xff50, 122), (0xff57, 123),
    (0xff55, 92), (0xff56, 93)]

/-- The `switch` on the keyval; none is `-1`. -/
def gdkToAndroidKey (keyval : UInt32) : Option Nat :=
  (editKeys.find? fun k => k.1 = keyval).map (·.2)

/-- `keys_down`: a bit for each keycode, in 32 bytes. -/
def keyMark (keysDown : List (BitVec 8)) (code : Nat) (down : Bool) : List (BitVec 8) :=
  if 256 ≤ code then keysDown
  else if down then keysDown.modify (code / 8) (· ||| (1#8 <<< (code % 8)))
  else keysDown.modify (code / 8) (· &&& ~~~(1#8 <<< (code % 8)))

def keyMarked (keysDown : List (BitVec 8)) (code : Nat) : Bool :=
  if 256 ≤ code then false
  else ((keysDown[code / 8]?.getD 0) >>> (code % 8)) &&& 1#8 = 1#8

structure KeySession where
  client : Bool
  keysDown : List (BitVec 8)
  calls : List SendCall
  deriving DecidableEq

def KeySession.start : KeySession := ⟨true, List.replicate 32 0, []⟩

/-- The keycode a press goes out under. -/
def pressCode (gdk : Gdk) (keyval state : UInt32) : Option Nat :=
  match gdkToAndroidKey keyval with
  | some ac => some ac
  | none =>
    if state &&& (gdkControlMask ||| gdkAltMask) ≠ 0 then gdkAlnumToAndroidKey gdk keyval else none

/-- The keycode a release looks for. -/
def releaseCode (gdk : Gdk) (keyval : UInt32) : Option Nat :=
  match gdkToAndroidKey keyval with
  | some ac => some ac
  | none => gdkAlnumToAndroidKey gdk keyval

/-- The event is handled if the result says so. -/
def onKeyPressed (gdk : Gdk) (s : KeySession) (keyval state : UInt32) : KeySession × Bool :=
  if !s.client then (s, false)
  else
    match pressCode gdk keyval state with
    | some ac =>
      ({ s with
          calls := s.calls ++ [.key 1 (UInt32.ofNat ac) (gdkStateToAmeta state) 0]
          keysDown := keyMark s.keysDown ac true }, true)
    | none =>
      let uc := gdk.keyvalToUnicode keyval
      if 0x20 ≤ uc ∧ uc ≠ 0x7f then
        ({ s with calls := s.calls ++ [.text (gdk.unicharToUtf8 uc)] }, true)
      else (s, false)

/-- Only what went out as KEY comes up; a TEXT has no down and up. -/
def onKeyReleased (gdk : Gdk) (s : KeySession) (keyval state : UInt32) : KeySession :=
  if !s.client then s
  else
    match releaseCode gdk keyval with
    | some ac =>
      if keyMarked s.keysDown ac then
        { s with
          calls := s.calls ++ [.key 0 (UInt32.ofNat ac) (gdkStateToAmeta state) 0]
          keysDown := keyMark s.keysDown ac false }
      else s
    | none => s

/-! ## Typing -/

inductive KeyEvent where
  | pressed (keyval state : UInt32)
  | released (keyval state : UInt32)
  deriving DecidableEq, Repr

def KeySession.handle (gdk : Gdk) (s : KeySession) : KeyEvent → KeySession
  | .pressed keyval state => (onKeyPressed gdk s keyval state).1
  | .released keyval state => onKeyReleased gdk s keyval state

def KeySession.run (gdk : Gdk) (s : KeySession) (events : List KeyEvent) : KeySession :=
  events.foldl (·.handle gdk) s

/-- What is done to the keys of a keyboard; a key that is held down repeats its press. -/
inductive Stroke where
  | press (key : Nat)
  | release (key : Nat)
  deriving DecidableEq, Repr

/-- The keyval of a key and the state of the modifiers, both by the keys that are held. -/
structure Keyboard where
  keyval : List Nat → Nat → UInt32
  state : List Nat → UInt32

/-- The events of GDK. -/
def Keyboard.events (kb : Keyboard) (held : List Nat) : List Stroke → List KeyEvent
  | [] => []
  | .press key :: strokes =>
    .pressed (kb.keyval held key) (kb.state held) ::
      kb.events (if key ∈ held then held else held ++ [key]) strokes
  | .release key :: strokes =>
    .released (kb.keyval held key) (kb.state held) :: kb.events (held.erase key) strokes

/-! ## The bitmap -/

theorem keyMarked_eq {ks : List (BitVec 8)} {c : Nat} (hc : c < 256) :
    keyMarked ks c = (ks[c / 8]?.getD 0).getLsbD (c % 8) := by
  have hbit : ∀ x : BitVec 8, decide (x &&& 1#8 = 1#8) = x.getLsbD 0 := by decide
  rw [keyMarked, if_neg (by omega), hbit, BitVec.getLsbD_ushiftRight, Nat.add_zero]

theorem getLsbD_mark (x : BitVec 8) {i j : Nat} (hj : j < 8) (down : Bool) :
    (if down then x ||| (1#8 <<< i) else x &&& ~~~(1#8 <<< i)).getLsbD j =
      if i = j then down else x.getLsbD j := by
  have hone : (1#8 <<< i).getLsbD j = decide (i = j) := by
    rw [BitVec.getLsbD_shiftLeft]
    by_cases hij : i = j
    · simp [hij, hj]
    · have hsub : j < i ∨ j - i ≠ 0 := by omega
      rcases hsub with hlt | hne
      · simp [hlt, hij]
      · simp [hij, BitVec.getLsbD_one, hne]
  cases down
  · simp only [Bool.false_eq_true, if_false, BitVec.getLsbD_and, BitVec.getLsbD_not, hone, hj,
      decide_true, Bool.true_and]
    by_cases hij : i = j <;> simp [hij]
  · simp only [if_true, BitVec.getLsbD_or, hone]
    by_cases hij : i = j <;> simp [hij]

theorem keyMark_length (ks : List (BitVec 8)) (c : Nat) (down : Bool) :
    (keyMark ks c down).length = ks.length := by
  unfold keyMark
  split
  · rfl
  · split <;> exact List.length_modify ..

/-- Marking a key is seen at that key only. -/
theorem keyMarked_keyMark {ks : List (BitVec 8)} (hlen : ks.length = 32) {c : Nat} (hc : c < 256)
    (d : Nat) (down : Bool) :
    keyMarked (keyMark ks c down) d = if c = d then down else keyMarked ks d := by
  rcases Nat.lt_or_ge d 256 with hd | hd
  · have hmark : keyMark ks c down = ks.modify (c / 8) fun x =>
        if down then x ||| (1#8 <<< (c % 8)) else x &&& ~~~(1#8 <<< (c % 8)) := by
      rw [keyMark, if_neg (by omega)]
      cases down <;> rfl
    have hget : ks[d / 8]? = some ks[d / 8] := List.getElem?_eq_getElem (by omega)
    rw [keyMarked_eq hd, keyMarked_eq hd, hmark, List.getElem?_modify, hget]
    by_cases hbyte : c / 8 = d / 8
    · simp only [hbyte, if_true, Option.map_eq_map, Option.map_some, Option.getD_some]
      rw [getLsbD_mark _ (by omega)]
      by_cases hcd : c = d
      · simp [hcd]
      · rw [if_neg (by omega), if_neg hcd]
    · have hcd : c ≠ d := fun heq => hbyte (by rw [heq])
      simp [hbyte, hcd]
  · rw [if_neg (by omega), keyMarked, if_pos hd, keyMarked, if_pos hd]

theorem eq_zero_of_not_marked {ks : List (BitVec 8)} (hlen : ks.length = 32)
    (h : ∀ c < 256, keyMarked ks c = false) : ks = List.replicate 32 0 := by
  refine List.ext_getElem (by simpa using hlen) fun i hi hi' => ?_
  rw [List.getElem_replicate]
  apply BitVec.eq_of_getLsbD_eq
  intro j hj
  have hmark := h (8 * i + j) (by omega)
  rw [keyMarked_eq (by omega), show (8 * i + j) / 8 = i by omega, show (8 * i + j) % 8 = j by omega,
    List.getElem?_eq_getElem hi] at hmark
  simpa using hmark

theorem not_marked_zero (c : Nat) : keyMarked (List.replicate 32 0) c = false := by
  rcases Nat.lt_or_ge c 256 with hc | hc
  · have hlt : c / 8 < 32 := by omega
    rw [keyMarked_eq hc, List.getElem?_replicate, if_pos hlt]
    exact BitVec.getLsbD_zero
  · exact if_pos hc

/-! ## What is down -/

theorem gdkAlnumToAndroidKey_lt {gdk : Gdk} {keyval : UInt32} {c : Nat}
    (h : gdkAlnumToAndroidKey gdk keyval = some c) : c < 256 := by
  simp only [gdkAlnumToAndroidKey] at h
  split at h
  · cases h
    omega
  · split at h
    · cases h
      omega
    · split at h
      · cases h
        decide
      · cases h

theorem gdkToAndroidKey_lt {keyval : UInt32} {c : Nat} (h : gdkToAndroidKey keyval = some c) :
    c < 256 := by
  have hall : ∀ k ∈ editKeys, k.2 < 256 := by decide
  obtain ⟨k, hk, rfl⟩ := Option.map_eq_some_iff.mp h
  exact hall k (List.mem_of_find?_eq_some hk)

theorem pressCode_lt {gdk : Gdk} {keyval state : UInt32} {c : Nat}
    (h : pressCode gdk keyval state = some c) : c < 256 := by
  unfold pressCode at h
  split at h
  · rename_i ac hac
    cases h
    exact gdkToAndroidKey_lt hac
  · split at h
    · exact gdkAlnumToAndroidKey_lt h
    · cases h

theorem releaseCode_lt {gdk : Gdk} {keyval : UInt32} {c : Nat}
    (h : releaseCode gdk keyval = some c) : c < 256 := by
  unfold releaseCode at h
  split at h
  · rename_i ac hac
    cases h
    exact gdkToAndroidKey_lt hac
  · exact gdkAlnumToAndroidKey_lt h

def isDown (keycode : UInt32) : SendCall → Bool
  | .key action code _ _ => action = 1 && code = keycode
  | _ => false

def isUp (keycode : UInt32) : SendCall → Bool
  | .key action code _ _ => action = 0 && code = keycode
  | _ => false

/-- No key is stuck: a DOWN is followed by an UP, an UP has a DOWN before it with no UP
between them, and `keys_down` is zero. -/
structure KeySession.Unstuck (s : KeySession) : Prop extends Balanced isDown isUp s.calls where
  keysDown : s.keysDown = List.replicate 32 0

def KeyEvent.presses (gdk : Gdk) (code : Nat) : KeyEvent → Bool
  | .pressed keyval state => pressCode gdk keyval state = some code
  | .released .. => false

def KeyEvent.releases (gdk : Gdk) (code : Nat) : KeyEvent → Bool
  | .pressed .. => false
  | .released keyval _ => releaseCode gdk keyval = some code

/-- A press that goes out under a keycode is followed by a release of which the keyval
has the same keycode. -/
def Answered (gdk : Gdk) (events : List KeyEvent) : Prop :=
  ∀ code before e after, events = before ++ e :: after → e.presses gdk code = true →
    ∃ e' ∈ after, e'.releases gdk code = true

/-- `keys_down` after some events: the keycodes that were pressed and not released since,
and as well those with a DOWN and no UP since. -/
structure Tracks (gdk : Gdk) (events : List KeyEvent) (s : KeySession) : Prop where
  client : s.client = true
  length : s.keysDown.length = 32
  inStep : InStep (fun k : UInt32 => KeyEvent.presses gdk k.toNat)
    (fun k => KeyEvent.releases gdk k.toNat) isDown isUp
    (fun k => keyMarked s.keysDown k.toNat = true) events s.calls

theorem keycode_toNat {c : Nat} (hc : c < 256) : (UInt32.ofNat c).toNat = c :=
  UInt32.toNat_ofNat_of_lt' (Nat.lt_trans hc (by decide))

theorem keycode_eq_iff {c : Nat} (hc : c < 256) (k : UInt32) : UInt32.ofNat c = k ↔ c = k.toNat := by
  rw [← UInt32.toNat_inj, keycode_toNat hc]

variable {gdk : Gdk} {events : List KeyEvent} {s : KeySession}

/-- A call that is no KEY, for an event that changes nothing. -/
theorem Tracks.text (h : Tracks gdk events s) {e : KeyEvent} (hpress : ∀ c, e.presses gdk c = false)
    (hrelease : ∀ c, e.releases gdk c = false) (utf8 : CStr) :
    Tracks gdk (events ++ [e]) { s with calls := s.calls ++ [.text utf8] } where
  client := h.client
  length := h.length
  inStep := by
    have hquiet := h.inStep.quiet (e := e) (fun k => hpress k.toNat) fun k hk => by
      rw [hrelease] at hk
      cases hk
    exact hquiet.other (fun _ => rfl) fun _ => rfl

theorem Tracks.quiet (h : Tracks gdk events s) {e : KeyEvent}
    (hpress : ∀ c, e.presses gdk c = false)
    (hrelease : ∀ c, e.releases gdk c = true → keyMarked s.keysDown c = false) :
    Tracks gdk (events ++ [e]) s where
  client := h.client
  length := h.length
  inStep := h.inStep.quiet (fun k => hpress k.toNat) fun k hk =>
    Bool.eq_false_iff.mp (hrelease k.toNat hk)

theorem Tracks.press (h : Tracks gdk events s) {e : KeyEvent} {c : Nat} (hc : c < 256)
    (hpress : ∀ d, e.presses gdk d = decide (c = d)) (hrelease : ∀ d, e.releases gdk d = false)
    (metastate : UInt32) :
    Tracks gdk (events ++ [e]) { s with
      calls := s.calls ++ [.key 1 (UInt32.ofNat c) metastate 0]
      keysDown := keyMark s.keysDown c true } where
  client := h.client
  length := (keyMark_length ..).trans h.length
  inStep := by
    refine h.inStep.press (k := UInt32.ofNat c) (fun k => ?_) (fun k => hrelease k.toNat)
      (fun k => ?_) (fun k => ?_) fun k => ?_
    · exact (hpress k.toNat).trans (decide_eq_decide.mpr (keycode_eq_iff hc k).symm)
    · simp [isDown]
    · simp [isUp]
    · rw [keyMarked_keyMark h.length hc, keycode_eq_iff hc]
      by_cases hcd : c = k.toNat <;> simp [hcd]

theorem Tracks.release (h : Tracks gdk events s) {e : KeyEvent} {c : Nat} (hc : c < 256)
    (hmarked : keyMarked s.keysDown c = true) (hpress : ∀ d, e.presses gdk d = false)
    (hrelease : ∀ d, e.releases gdk d = decide (c = d)) (metastate : UInt32) :
    Tracks gdk (events ++ [e]) { s with
      calls := s.calls ++ [.key 0 (UInt32.ofNat c) metastate 0]
      keysDown := keyMark s.keysDown c false } where
  client := h.client
  length := (keyMark_length ..).trans h.length
  inStep := by
    refine h.inStep.release (k := UInt32.ofNat c) ?_ (fun k => hpress k.toNat) (fun k => ?_)
      (fun k => ?_) (fun k => ?_) fun k => ?_
    · rwa [keycode_toNat hc]
    · exact (hrelease k.toNat).trans (decide_eq_decide.mpr (keycode_eq_iff hc k).symm)
    · simp [isDown]
    · simp [isUp]
    · rw [keyMarked_keyMark h.length hc, ne_eq, keycode_eq_iff hc]
      by_cases hcd : c = k.toNat <;> simp [hcd]

/-- Every event is one of these. -/
theorem Tracks.handle (h : Tracks gdk events s) (e : KeyEvent) :
    Tracks gdk (events ++ [e]) (s.handle gdk e) := by
  have hclient : (!s.client) = false := by simp [h.client]
  cases e with
  | pressed keyval state =>
    have hrelease : ∀ d, (KeyEvent.pressed keyval state).releases gdk d = false := fun _ => rfl
    simp only [KeySession.handle, onKeyPressed, hclient, Bool.false_eq_true, if_false]
    split
    · rename_i ac hac
      refine h.press (pressCode_lt hac) (fun d => ?_) hrelease _
      simp [KeyEvent.presses, hac]
    · rename_i hnone
      have hpress : ∀ d, (KeyEvent.pressed keyval state).presses gdk d = false := fun d => by
        simp [KeyEvent.presses, hnone]
      split
      · exact h.text hpress hrelease _
      · exact h.quiet hpress fun d hd => by cases hd
  | released keyval state =>
    have hpress : ∀ d, (KeyEvent.released keyval state).presses gdk d = false := fun _ => rfl
    simp only [KeySession.handle, onKeyReleased, hclient, Bool.false_eq_true, if_false]
    split
    · rename_i ac hac
      have hrelease : ∀ d, (KeyEvent.released keyval state).releases gdk d = decide (ac = d) :=
        fun d => by simp [KeyEvent.releases, hac]
      split
      · rename_i hmarked
        exact h.release (releaseCode_lt hac) hmarked hpress hrelease _
      · rename_i hmarked
        refine h.quiet hpress fun d hd => ?_
        rw [hrelease d, decide_eq_true_eq] at hd
        subst hd
        simpa using hmarked
    · rename_i hnone
      refine h.quiet hpress fun d hd => ?_
      simp [KeyEvent.releases, hnone] at hd

theorem tracks_run (gdk : Gdk) (events : List KeyEvent) :
    Tracks gdk events (KeySession.start.run gdk events) := by
  induction events using List.reverseRecOn with
  | nil =>
    exact ⟨rfl, rfl, .nil fun k => Bool.eq_false_iff.mp (not_marked_zero k.toNat)⟩
  | append_singleton events e ih =>
    rw [KeySession.run, List.foldl_append]
    exact ih.handle e

/-- What is marked at the end decides. -/
theorem unstuck_iff (h : Tracks gdk events s) :
    s.Unstuck ↔ ∀ k : UInt32, ¬keyMarked s.keysDown k.toNat = true := by
  constructor
  · intro hs k
    rw [hs.keysDown, not_marked_zero]
    exact Bool.false_ne_true
  · intro hnone
    refine ⟨h.inStep.balanced hnone, eq_zero_of_not_marked h.length fun c hc => ?_⟩
    have hc' := hnone (UInt32.ofNat c)
    rwa [keycode_toNat hc, Bool.not_eq_true] at hc'

/-- **No key stays stuck, as long as its keyval keeps its keycode.** For every keyboard
and everything that is done to its keys: each KEY DOWN is followed by a KEY UP, no KEY
UP comes without a DOWN, and `keys_down` is zero at the end, if and only if every press
that goes out under a keycode is followed by a release under a keyval of the same
keycode. -/
theorem keys_unstuck_iff (gdk : Gdk) (kb : Keyboard) (strokes : List Stroke) :
    (KeySession.start.run gdk (kb.events [] strokes)).Unstuck ↔
      Answered gdk (kb.events [] strokes) := by
  have htracks := tracks_run gdk (kb.events [] strokes)
  rw [unstuck_iff htracks, htracks.inStep.none_iff]
  constructor
  · intro hall code before e after hevents hpress
    have hcode : code < 256 := by
      cases e with
      | pressed keyval state => exact pressCode_lt (of_decide_eq_true hpress)
      | released keyval state => cases hpress
    have hkey := hall (UInt32.ofNat code) before e after hevents
    rw [keycode_toNat hcode] at hkey
    exact hkey hpress
  · exact fun hall k => hall k.toNat

/-! ## Shift goes down between -/

/-- Every key that is pressed is released later. -/
def Released (strokes : List Stroke) : Prop :=
  ∀ key before after, strokes = before ++ .press key :: after → .release key ∈ after

/-- Two keys of a US keyboard, Tab (23) and Shift (50), by the keycodes of X. -/
def usKeyboard : Keyboard where
  keyval held key :=
    if key = 23 then (if 50 ∈ held then 0xfe20 else 0xff09) else if key = 50 then 0xffe1 else 0xffffff
  state held := if 50 ∈ held then gdkShiftMask else 0

def asciiGdk : Gdk where
  keyvalToLower keyval := if 0x41 ≤ keyval ∧ keyval ≤ 0x5a then keyval + 0x20 else keyval
  keyvalToUnicode keyval := if 0x20 ≤ keyval ∧ keyval ≤ 0x7e then keyval else 0
  unicharToUtf8 uc := ⟨[uc.toUInt8].filter (· ≠ 0), by simp⟩

/-- Tab goes down, Shift goes down, Tab comes up as `ISO_Left_Tab`, Shift comes up. -/
def shiftedTab : List Stroke := [.press 23, .press 50, .release 23, .release 50]

theorem keys_stuck_tab :
    ¬∀ (gdk : Gdk) (kb : Keyboard) (strokes : List Stroke), Released strokes →
      (KeySession.start.run gdk (kb.events [] strokes)).Unstuck := by
  intro h
  have hreleased : Released shiftedTab := by
    intro key before after hs
    rcases before with _ | ⟨_, _ | ⟨_, _ | ⟨_, _ | ⟨_, _⟩⟩⟩⟩ <;> simp [shiftedTab] at hs
    · obtain ⟨rfl, rfl⟩ := hs
      decide
    · obtain ⟨-, rfl, rfl⟩ := hs
      decide
  have hzero := (h asciiGdk usKeyboard shiftedTab hreleased).keysDown
  revert hzero
  decide

end RigControl.Gtk
