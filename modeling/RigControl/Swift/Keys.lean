import Mathlib.Data.Finset.Erase
import Mathlib.Data.Finset.Insert
import RigControl.Gtk.Keys

/-!
# Key events of a window on macOS

`AndroidKeys.swift`, and `keyDown` and `keyUp` of `MetalVideoView.swift`. A key with an
Android keycode goes out as KEY, anything else as TEXT; `keysDown` keeps which keycodes
are down. While Command is held both leave their event to AppKit: a key that comes up
then stays down in the device. `keys_released_iff` says when every keycode comes up.

Android sees the calls of `rc_client_send_key` and `rc_client_send_text`, oldest first.
-/

namespace RigControl.Swift

open RigControl.Core RigControl.Lib
open RigControl.Gtk (isDown isUp)

/-- What the String of Swift knows of a text: its C string, and the ASCII value of its
first Character in lower case. -/
structure MacText where
  lowercasedAscii : List Char → Option Nat
  cString : List Char → CStr

/-- An `NSEvent` of a key, with the texts as scalars. -/
structure MacEvent where
  characters : Option (List Char)
  charactersIgnoringModifiers : Option (List Char)
  shift : Bool
  option : Bool
  control : Bool
  command : Bool
  deriving DecidableEq, Repr

inductive KeyAction where
  | key (keycode metastate : UInt32)
  | text (chars : List Char)
  | ignore
  deriving DecidableEq, Repr

def KeyAction.keycode : KeyAction → Option UInt32
  | .key keycode _ => some keycode
  | _ => none

def androidMeta (event : MacEvent) : UInt32 :=
  (if event.shift then 0x1 ||| 0x40 else 0) ||| (if event.option then 0x02 ||| 0x10 else 0) |||
    (if event.control then 0x1000 ||| 0x2000 else 0)

/-- Letters, digits and the space bar. -/
def alnumToAndroid (T : MacText) (text : List Char) : Option UInt32 :=
  (T.lowercasedAscii text).bind fun a =>
    if 0x61 ≤ a ∧ a ≤ 0x7a then some (UInt32.ofNat (29 + (a - 0x61)))
    else if 0x30 ≤ a ∧ a ≤ 0x39 then some (UInt32.ofNat (7 + (a - 0x30)))
    else if a = 0x20 then some 62
    else none

/-- Keys to move and to edit, by their scalars; those from `0xF700` on are AppKit's. -/
def specialKeys : List (Nat × UInt32) :=
  [(0x0D, 66), (0x03, 66), (0x7F, 67), (0x09, 61), (0x19, 61), (0x1B, 4), (0xF728, 112),
    (0xF702, 21), (0xF703, 22), (0xF700, 19), (0xF701, 20), (0xF729, 122), (0xF72B, 123),
    (0xF72C, 92), (0xF72D, 93)]

def specialToAndroid (scalar : Char) : Option UInt32 :=
  (specialKeys.find? fun k => k.1 = scalar.toNat).map (·.2)

def specialCode (event : MacEvent) : Option UInt32 :=
  (event.charactersIgnoringModifiers.bind List.head?).bind specialToAndroid

def mapKeyDown (T : MacText) (event : MacEvent) : KeyAction :=
  match specialCode event with
  | some code => .key code (androidMeta event)
  | none =>
    match (if event.control || event.option then
        event.charactersIgnoringModifiers.bind (alnumToAndroid T) else none) with
    | some code => .key code (androidMeta event)
    | none =>
      match event.characters with
      | some (c :: chars) => if 0x20 ≤ c.toNat ∧ c.toNat ≠ 0x7F then .text (c :: chars) else .ignore
      | _ => .ignore

def mapKeyUpCode (T : MacText) (event : MacEvent) : Option UInt32 :=
  match specialCode event with
  | some code => some code
  | none => event.charactersIgnoringModifiers.bind (alnumToAndroid T)

/-- The view, with the client of its model. -/
structure MacKeys where
  client : Bool
  keysDown : Finset UInt32
  calls : List SendCall
  deriving DecidableEq

def MacKeys.start : MacKeys := ⟨true, ∅, []⟩

def keyDown (T : MacText) (s : MacKeys) (event : MacEvent) : MacKeys :=
  if event.command || !s.client then s
  else
    match mapKeyDown T event with
    | .key code metastate =>
      { s with
        calls := s.calls ++ [.key 1 code metastate 0]
        keysDown := insert code s.keysDown }
    | .text chars => { s with calls := s.calls ++ [.text (T.cString chars)] }
    | .ignore => s

def keyUp (T : MacText) (s : MacKeys) (event : MacEvent) : MacKeys :=
  if event.command || !s.client then s
  else
    match mapKeyUpCode T event with
    | some code =>
      if code ∈ s.keysDown then
        { s with
          calls := s.calls ++ [.key 0 code (androidMeta event) 0]
          keysDown := s.keysDown.erase code }
      else s
    | none => s

inductive MacKeyEvent where
  | down (event : MacEvent)
  | up (event : MacEvent)
  deriving DecidableEq, Repr

def MacKeys.handle (T : MacText) (s : MacKeys) : MacKeyEvent → MacKeys
  | .down event => keyDown T s event
  | .up event => keyUp T s event

def MacKeys.run (T : MacText) (s : MacKeys) (events : List MacKeyEvent) : MacKeys :=
  events.foldl (·.handle T) s

/-! ## What is down -/

/-- A press that goes out under the keycode. -/
def MacKeyEvent.presses (T : MacText) (code : UInt32) : MacKeyEvent → Bool
  | .down event => !event.command && (mapKeyDown T event).keycode = some code
  | .up _ => false

/-- A release that takes the keycode up. -/
def MacKeyEvent.releases (T : MacText) (code : UInt32) : MacKeyEvent → Bool
  | .down _ => false
  | .up event => !event.command && mapKeyUpCode T event = some code

/-- No key is stuck: a DOWN is followed by an UP, an UP has a DOWN before it with no UP
between them, and `keysDown` is empty. -/
structure MacKeys.Unstuck (s : MacKeys) : Prop extends Balanced isDown isUp s.calls where
  keysDown : s.keysDown = ∅

variable {T : MacText} {events : List MacKeyEvent} {s : MacKeys}

/-- `keysDown` after some events: the keycodes that were pressed and not released since,
and as well those with a DOWN and no UP since. -/
structure MacKeys.Follows (T : MacText) (events : List MacKeyEvent) (s : MacKeys) : Prop where
  client : s.client = true
  inStep : InStep (MacKeyEvent.presses T) (MacKeyEvent.releases T) isDown isUp (· ∈ s.keysDown)
    events s.calls

namespace MacKeys.Follows

/-- An event that takes nothing down, and nothing up that is down. -/
theorem quiet (h : s.Follows T events) {e : MacKeyEvent} (hpress : ∀ c, e.presses T c = false)
    (hrelease : ∀ c, e.releases T c = true → c ∉ s.keysDown) : s.Follows T (events ++ [e]) :=
  ⟨h.client, h.inStep.quiet hpress hrelease⟩

theorem text (h : s.Follows T events) {e : MacKeyEvent} (hpress : ∀ c, e.presses T c = false)
    (hrelease : ∀ c, e.releases T c = false) (utf8 : CStr) :
    Follows T (events ++ [e]) { s with calls := s.calls ++ [.text utf8] } where
  client := h.client
  inStep := by
    have hquiet := h.inStep.quiet hpress fun c hc => by
      rw [hrelease] at hc
      cases hc
    exact hquiet.other (fun _ => rfl) fun _ => rfl

theorem press (h : s.Follows T events) {e : MacKeyEvent} {c : UInt32}
    (hpress : ∀ d, e.presses T d = decide (c = d)) (hrelease : ∀ d, e.releases T d = false)
    (metastate : UInt32) :
    Follows T (events ++ [e]) { s with
      calls := s.calls ++ [.key 1 c metastate 0]
      keysDown := insert c s.keysDown } where
  client := h.client
  inStep := by
    refine h.inStep.press hpress hrelease (fun d => ?_) (fun d => ?_) fun d => ?_
    · simp [isDown]
    · simp [isUp]
    · rw [Finset.mem_insert, eq_comm]

theorem release (h : s.Follows T events) {e : MacKeyEvent} {c : UInt32} (hc : c ∈ s.keysDown)
    (hpress : ∀ d, e.presses T d = false) (hrelease : ∀ d, e.releases T d = decide (c = d))
    (metastate : UInt32) :
    Follows T (events ++ [e]) { s with
      calls := s.calls ++ [.key 0 c metastate 0]
      keysDown := s.keysDown.erase c } where
  client := h.client
  inStep := by
    refine h.inStep.release hc hpress hrelease (fun d => ?_) (fun d => ?_) fun d => ?_
    · simp [isDown]
    · simp [isUp]
    · rw [Finset.mem_erase, and_comm, ne_comm]

theorem keyDown (h : s.Follows T events) (event : MacEvent) :
    Follows T (events ++ [.down event]) (Swift.keyDown T s event) := by
  have hrelease : ∀ c, (MacKeyEvent.down event).releases T c = false := fun _ => rfl
  have hclient : (event.command || !s.client) = event.command := by
    rw [h.client, Bool.not_true, Bool.or_false]
  unfold Swift.keyDown
  rw [hclient]
  split
  case isTrue hcommand =>
    refine h.quiet (fun c => ?_) fun c hc => nomatch hc
    rw [MacKeyEvent.presses, hcommand]
    rfl
  case isFalse hcommand =>
    have hpress : ∀ c, (MacKeyEvent.down event).presses T c =
        decide ((mapKeyDown T event).keycode = some c) := fun c => by
      rw [MacKeyEvent.presses, Bool.eq_false_iff.mpr hcommand]
      rfl
    split
    case h_1 code metastate hmap =>
      refine h.press (fun c => (hpress c).trans ?_) hrelease metastate
      rw [hmap, KeyAction.keycode]
      exact decide_eq_decide.mpr Option.some_inj
    case h_2 chars hmap =>
      refine h.text (fun c => (hpress c).trans ?_) hrelease _
      rw [hmap]
      rfl
    case h_3 hmap =>
      refine h.quiet (fun c => (hpress c).trans ?_) fun c hc => nomatch hc
      rw [hmap]
      rfl

theorem keyUp (h : s.Follows T events) (event : MacEvent) :
    Follows T (events ++ [.up event]) (Swift.keyUp T s event) := by
  have hpress : ∀ c, (MacKeyEvent.up event).presses T c = false := fun _ => rfl
  have hclient : (event.command || !s.client) = event.command := by
    rw [h.client, Bool.not_true, Bool.or_false]
  unfold Swift.keyUp
  rw [hclient]
  split
  case isTrue hcommand =>
    refine h.quiet hpress fun c hc => ?_
    rw [MacKeyEvent.releases, hcommand] at hc
    exact nomatch hc
  case isFalse hcommand =>
    have hrelease : ∀ c, (MacKeyEvent.up event).releases T c =
        decide (mapKeyUpCode T event = some c) := fun c => by
      rw [MacKeyEvent.releases, Bool.eq_false_iff.mpr hcommand]
      rfl
    split
    case h_1 code hmap =>
      have hcode : ∀ c, (MacKeyEvent.up event).releases T c = decide (code = c) := fun c => by
        rw [hrelease, hmap]
        exact decide_eq_decide.mpr Option.some_inj
      split
      case isTrue hdown => exact h.release hdown hpress hcode _
      case isFalse hnot =>
        refine h.quiet hpress fun c hc => ?_
        rw [hcode, decide_eq_true_eq] at hc
        exact hc ▸ hnot
    case h_2 hmap =>
      refine h.quiet hpress fun c hc => ?_
      rw [hrelease, hmap] at hc
      exact nomatch hc

theorem run (T : MacText) (events : List MacKeyEvent) :
    Follows T events (MacKeys.start.run T events) := by
  induction events using List.reverseRecOn with
  | nil => exact ⟨rfl, .nil Finset.notMem_empty⟩
  | append_singleton events e ih =>
    rw [MacKeys.run, List.foldl_append]
    cases e with
    | down event => exact ih.keyDown event
    | up event => exact ih.keyUp event

theorem unstuck_iff (h : s.Follows T events) : s.Unstuck ↔ ∀ c, c ∉ s.keysDown := by
  rw [← Finset.eq_empty_iff_forall_notMem]
  refine ⟨Unstuck.keysDown, fun hnone => ⟨h.inStep.balanced fun c => ?_, hnone⟩⟩
  rw [hnone]
  exact Finset.notMem_empty c

end MacKeys.Follows

/-- **On macOS every key comes up, but for Command.** Whatever key events a window gets,
each KEY DOWN is followed by a KEY UP, no KEY UP comes without a DOWN, and `keysDown` is
empty at the end, if and only if every press without Command that goes out under a keycode
is followed by a release without Command that has the same keycode. -/
theorem keys_released_iff (T : MacText) (events : List MacKeyEvent) :
    (MacKeys.start.run T events).Unstuck ↔
      ∀ code before e after, events = before ++ e :: after → e.presses T code = true →
        ∃ e' ∈ after, e'.releases T code = true := by
  have hfollows := MacKeys.Follows.run T events
  exact hfollows.unstuck_iff.trans hfollows.inStep.none_iff

def asciiMac : MacText where
  lowercasedAscii text := text.head?.map fun c => c.toLower.toNat
  cString text := ⟨(text.map fun c => UInt8.ofNat c.toNat).filter (· ≠ 0), by simp⟩

/-- Control and A. -/
def controlA : MacEvent := ⟨some ['\x01'], some ['a'], false, false, true, false⟩

-- Command goes down between, and A stays down.
example : (MacKeys.start.run asciiMac
    [.down controlA, .up { controlA with command := true }]).calls = [.key 1 29 0x3000 0] := by
  decide

end RigControl.Swift
