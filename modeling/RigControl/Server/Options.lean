import RigControl.Lib.Decimal
import RigControl.Server.DesktopConnection

/-!
# The arguments of `rc-server`

`Options.parse`: `key=value`, in any order; a key that is not known is left out, and a
number that is none ends the server. The last argument of a key counts.
-/

namespace RigControl.Server

open RigControl.Lib

namespace Protocol

def localabstractName : CString := "rigcontrol".toList
def defaultTcpPort : Int := 27183

def codecIdH264 : UInt32 := 0x68323634
def codecIdH265 : UInt32 := 0x68323635
def codecIdAv1 : UInt32 := 0x00617631

end Protocol

/-- `Options`, with all its fields. -/
structure ServerOptions where
  maxSize : Int
  bitRate : Int
  maxFps : Int
  codec : CString
  control : Bool
  audio : Bool
  audioCodec : CString
  tcp : Bool
  port : Int
  socketName : CString
  token : Option CString
  deriving DecidableEq, Repr

def ServerOptions.default : ServerOptions where
  maxSize := 0
  bitRate := 8000000
  maxFps := 60
  codec := "h264".toList
  control := true
  audio := true
  audioCodec := "opus".toList
  tcp := false
  port := Protocol.defaultTcpPort
  socketName := Protocol.localabstractName
  token := none

/-- `Integer.parseInt` of an ASCII text; `none` is a `NumberFormatException`. -/
def parseInt (text : CString) : Option Int := wholeInt (2 ^ 31) text

/-- `Boolean.parseBoolean` of an ASCII text. -/
def parseBoolean (v : CString) : Bool := v.map Char.toLower = "true".toList

/-- Before and behind the first `=`. -/
def splitAtEq (a : CString) : Option (CString × CString) :=
  match a.dropWhile (· ≠ '=') with
  | _ :: v => some (a.takeWhile (· ≠ '='), v)
  | [] => none

/-- The `switch` of `parse`. -/
def ServerOptions.put (o : ServerOptions) (k v : CString) : Option ServerOptions :=
  if k = "max_size".toList then (parseInt v).map fun n => { o with maxSize := n }
  else if k = "bit_rate".toList then (parseInt v).map fun n => { o with bitRate := n }
  else if k = "max_fps".toList then (parseInt v).map fun n => { o with maxFps := n }
  else if k = "codec".toList then some { o with codec := v }
  else if k = "control".toList then some { o with control := parseBoolean v }
  else if k = "audio".toList then some { o with audio := parseBoolean v }
  else if k = "audio_codec".toList then some { o with audioCodec := v }
  else if k = "tcp".toList then some { o with tcp := parseBoolean v }
  else if k = "port".toList then (parseInt v).map fun n => { o with port := n }
  else if k = "socket_name".toList then some { o with socketName := v }
  else if k = "token".toList then some { o with token := some v }
  else some o

def ServerOptions.arg (o : ServerOptions) (a : CString) : Option ServerOptions :=
  match splitAtEq a with
  | none => some o
  | some (k, v) => o.put k v

/-- `Options.parse`; `none` is a `NumberFormatException`. -/
def parseOptions (args : List CString) : Option ServerOptions :=
  args.foldlM ServerOptions.arg .default

/-- `codecId` of the encoder. -/
def ServerOptions.codecId (o : ServerOptions) : UInt32 :=
  if o.codec = "h265".toList then Protocol.codecIdH265
  else if o.codec = "av1".toList then Protocol.codecIdAv1
  else Protocol.codecIdH264

/-- What `DesktopConnection` needs of the options; the token is compared in ASCII. -/
def ServerOptions.connection (o : ServerOptions) : Options where
  token := o.token.map fun token =>
    token.map fun c => if c.toNat < 128 then UInt8.ofNat c.toNat else '?'.toUInt8
  audio := o.audio
  control := o.control

/-! ## One argument -/

theorem splitAtEq_append {k : CString} (v : CString) (h : '=' ∉ k) :
    splitAtEq (k ++ '=' :: v) = some (k, v) := by
  have hkey : ∀ c ∈ k, decide (c ≠ '=') = true := by
    intro c hc
    refine decide_eq_true ?_
    rintro rfl
    exact h hc
  unfold splitAtEq
  rw [List.dropWhile_append_of_pos hkey, List.takeWhile_append_of_pos hkey]
  simp

theorem arg_put (o : ServerOptions) {key k : CString} (v : CString) (hkey : key = k ++ ['='])
    (h : '=' ∉ k) : o.arg (key ++ v) = o.put k v := by
  have hsplit : splitAtEq (key ++ v) = some (k, v) := by
    rw [hkey, List.append_assoc, List.singleton_append, splitAtEq_append v h]
  simp only [ServerOptions.arg, hsplit]

/-- What `%d` prints is read back. -/
theorem parseInt_decimal {n : Int} (hlo : -2 ^ 31 ≤ n) (hhi : n < 2 ^ 31) :
    parseInt (decimal n) = some n :=
  wholeInt_decimal hlo hhi

end RigControl.Server
