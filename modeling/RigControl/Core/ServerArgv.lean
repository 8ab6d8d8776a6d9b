import RigControl.Core.Client
import RigControl.Lib.Decimal

/-!
# The command line of `rc-server`

The text that `rc_adb_run_server` prints into its buffers, and the argv that it puts
them into. What the parameters are is in `serverArgs`; here is how they are spelled.
-/

namespace RigControl.Core

open RigControl.Lib

def rcServerRemotePath : CString := "/data/local/tmp/rc-server".toList

def codecName : RcCodec → CString
  | .h265 => "h265".toList
  | .av1 => "av1".toList
  | .h264 => "h264".toList

def flagName (b : Bool) : CString := if b then "true".toList else "false".toList

/-- A call of `snprintf`: the size of the buffer and the whole text. -/
structure Printed where
  size : Nat
  text : CString
  deriving DecidableEq, Repr

/-- What is in the buffer. -/
def Printed.buffer (p : Printed) : CString := p.text.take (p.size - 1)

/-- Nothing is cut. -/
def Printed.Fits (p : Printed) : Prop := p.text.length < p.size

/-- `c->socket_name`, by `rc_client_create`. -/
def clientSocketName (pid id : Int) : Printed :=
  ⟨64, rcLocalabstractName ++ '_' :: (decimal pid ++ '_' :: decimal id)⟩

/-- The buffers of `rc_adb_run_server`. -/
structure ServerKvs where
  classpath : Printed
  socket : Printed
  maxSize : Printed
  bitRate : Printed
  maxFps : Printed
  codec : Printed
  audio : Printed
  control : Printed
  tcp : Printed
  port : Printed
  /-- Printed only if there is one. -/
  token : Option Printed

def serverKvs (cfg : RcConfig) (socketName : Option CString) (tcpPort : Int)
    (token : Option CString) : ServerKvs where
  classpath := ⟨64, "CLASSPATH=".toList ++ rcServerRemotePath⟩
  socket := ⟨96, "socket_name=".toList ++ socketName.getD rcLocalabstractName⟩
  maxSize := ⟨32, "max_size=".toList ++ decimal cfg.maxSize⟩
  bitRate := ⟨32, "bit_rate=".toList ++ decimal (if 0 < cfg.bitRate then cfg.bitRate else 8000000)⟩
  maxFps := ⟨32, "max_fps=".toList ++ decimal (if 0 < cfg.maxFps then cfg.maxFps else 60)⟩
  codec := ⟨24, "codec=".toList ++ codecName cfg.codec⟩
  audio := ⟨16, "audio=".toList ++ flagName cfg.audio⟩
  control := ⟨16, "control=".toList ++ flagName cfg.control⟩
  tcp := ⟨16, "tcp=".toList ++ flagName (0 < tcpPort)⟩
  port := ⟨24, "port=".toList ++ decimal tcpPort⟩
  token := (token.filter (· ≠ [])).map fun token => ⟨48, "token=".toList ++ token⟩

def ServerKvs.all (kvs : ServerKvs) : List Printed :=
  [kvs.classpath, kvs.socket, kvs.maxSize, kvs.bitRate, kvs.maxFps, kvs.codec, kvs.audio,
    kvs.control, kvs.tcp, kvs.port] ++ kvs.token.toList

/-- The buffers that the argv ends in. -/
def ServerKvs.given (kvs : ServerKvs) (tcpPort : Int) : List Printed :=
  [kvs.socket, kvs.maxSize, kvs.bitRate, kvs.maxFps, kvs.codec, kvs.audio, kvs.control, kvs.tcp] ++
    (if 0 < tcpPort then [kvs.port] else []) ++ kvs.token.toList

/-- What `main` of the server gets. -/
def ServerKvs.args (kvs : ServerKvs) (tcpPort : Int) : List CString :=
  (kvs.given tcpPort).map Printed.buffer

/-- `prefix_serial`. -/
def prefixSerial (serial : Option CString) (cap : Nat) : List CString :=
  let out := if 0 < cap then ["adb".toList] else []
  match serial with
  | some serial => if out.length + 1 < cap then out ++ ["-s".toList, serial] else out
  | none => out

/-- The size of the array `a`. -/
def serverArgvSize : Nat := 24

/-- The argv of `rc_adb_run_server`, without the NULL behind it. -/
def serverArgv (serial : Option CString) (cfg : RcConfig) (socketName : Option CString)
    (tcpPort : Int) (token : Option CString) : List CString :=
  let kvs := serverKvs cfg socketName tcpPort token
  prefixSerial serial serverArgvSize ++
    ["shell".toList, kvs.classpath.buffer, "app_process".toList, "/".toList,
      "com.rigcontrol.server.Server".toList] ++
    kvs.args tcpPort

/-! ## The buffers -/

/-- A value of the C type `int`. -/
def IsInt (n : Int) : Prop := -2 ^ 31 ≤ n ∧ n < 2 ^ 31

instance (n : Int) : Decidable (IsInt n) := inferInstanceAs (Decidable (_ ∧ _))

structure RcConfig.Ints (cfg : RcConfig) : Prop where
  maxSize : IsInt cfg.maxSize
  bitRate : IsInt cfg.bitRate
  maxFps : IsInt cfg.maxFps

/-- Ten digits and a sign. -/
theorem length_decimal_int {n : Int} (h : IsInt n) : (decimal n).length ≤ 11 := by
  obtain ⟨hlo, hhi⟩ := h
  cases n with
  | ofNat m =>
    have hdigits : (decimal (.ofNat m)).length ≤ 10 :=
      length_decimal_le (by decide) (Int.natCast_nonneg m) (by omega)
    omega
  | negSucc m =>
    have hdigits : (Nat.toDigits 10 (m + 1)).length ≤ 10 :=
      (Nat.length_toDigits_le_iff (by decide) (by decide)).mpr (by omega)
    rw [decimal, List.length_cons]
    omega

theorem buffer_eq {p : Printed} (h : p.Fits) : p.buffer = p.text := by
  unfold Printed.Fits at h
  exact List.take_of_length_le (by omega)

theorem given_subset (kvs : ServerKvs) (tcpPort : Int) : kvs.given tcpPort ⊆ kvs.all := by
  have hport : (if 0 < tcpPort then [kvs.port] else []).Sublist [kvs.port] := by
    split <;> simp
  exact ((((List.Sublist.refl _).append hport).append (List.Sublist.refl _)).cons kvs.classpath).subset

/-- Where nothing is cut, the arguments are the texts. -/
theorem args_eq {kvs : ServerKvs} (h : ∀ p ∈ kvs.all, p.Fits) (tcpPort : Int) :
    kvs.args tcpPort = (kvs.given tcpPort).map Printed.text :=
  List.map_congr_left fun p hp => buffer_eq (h p (given_subset kvs tcpPort hp))

theorem clientSocketName_fits {pid id : Int} (hpid : IsInt pid) (hid : IsInt id) :
    (clientSocketName pid id).Fits ∧ (clientSocketName pid id).text.length ≤ 34 := by
  have hlength : (clientSocketName pid id).text.length =
      12 + (decimal pid).length + (decimal id).length := by
    simp [clientSocketName, rcLocalabstractName]
    omega
  have := length_decimal_int hpid
  have := length_decimal_int hid
  refine ⟨?_, by omega⟩
  unfold Printed.Fits
  rw [hlength]
  show _ < 64
  omega

theorem length_flagName (b : Bool) : (flagName b).length ≤ 5 := by
  cases b <;> decide

theorem length_codecName (codec : RcCodec) : (codecName codec).length ≤ 4 := by
  cases codec <;> decide

/-- A key with its value. -/
theorem Printed.fits_key {size : Nat} {key value : CString} {m : Nat} (hvalue : value.length ≤ m)
    (h : key.length + m < size) : Printed.Fits ⟨size, key ++ value⟩ := by
  show (key ++ value).length < size
  rw [List.length_append]
  omega

/-- No text is too long for its buffer. -/
theorem serverKvs_fits {cfg : RcConfig} (hcfg : cfg.Ints) {socketName : Option CString}
    (hsocket : ∀ name ∈ socketName, name.length ≤ 34) {tcpPort : Int} (hport : IsInt tcpPort)
    {token : Option CString} (htoken : ∀ t ∈ token, t.length = 32) :
    ∀ p ∈ (serverKvs cfg socketName tcpPort token).all, p.Fits := by
  have hname : (socketName.getD rcLocalabstractName).length ≤ 34 := by
    cases socketName with
    | none => decide
    | some name => exact hsocket name rfl
  have hrate : (decimal (if 0 < cfg.bitRate then cfg.bitRate else 8000000)).length ≤ 11 := by
    split
    · exact length_decimal_int hcfg.bitRate
    · decide
  have hfps : (decimal (if 0 < cfg.maxFps then cfg.maxFps else 60)).length ≤ 11 := by
    split
    · exact length_decimal_int hcfg.maxFps
    · decide
  unfold ServerKvs.all
  refine List.forall_mem_append.mpr ⟨?_, ?_⟩
  · simp only [List.forall_mem_cons]
    refine ⟨Printed.fits_key (m := 25) (by decide) (by decide), Printed.fits_key hname (by decide),
      Printed.fits_key (length_decimal_int hcfg.maxSize) (by decide),
      Printed.fits_key hrate (by decide), Printed.fits_key hfps (by decide),
      Printed.fits_key (length_codecName cfg.codec) (by decide),
      Printed.fits_key (length_flagName cfg.audio) (by decide),
      Printed.fits_key (length_flagName cfg.control) (by decide),
      Printed.fits_key (length_flagName _) (by decide),
      Printed.fits_key (length_decimal_int hport) (by decide), by simp⟩
  · intro p hp
    obtain ⟨t, ht, rfl⟩ := Option.map_eq_some_iff.mp (Option.mem_toList.mp hp)
    have hlength : t.length ≤ 32 := Nat.le_of_eq (htoken t (Option.filter_eq_some_iff.mp ht).1)
    exact Printed.fits_key hlength (by decide)

/-- The array has room for the arguments and for the NULL. -/
theorem length_serverArgv (serial : Option CString) (cfg : RcConfig)
    (socketName : Option CString) (tcpPort : Int) (token : Option CString) :
    (serverArgv serial cfg socketName tcpPort token).length < serverArgvSize := by
  have hserial : (prefixSerial serial serverArgvSize).length ≤ 3 := by
    cases serial <;> simp [prefixSerial, serverArgvSize]
  have htoken : ∀ kvs : ServerKvs, kvs.token.toList.length ≤ 1 := by
    intro kvs
    cases kvs.token <;> simp
  have hargs : ∀ kvs : ServerKvs, (kvs.args tcpPort).length ≤ 10 := by
    intro kvs
    have := htoken kvs
    unfold ServerKvs.args ServerKvs.given
    split <;> simp only [List.length_map, List.length_append, List.length_cons, List.length_nil] <;>
      omega
  have := hargs (serverKvs cfg socketName tcpPort token)
  simp only [serverArgv, List.length_append, List.length_cons, List.length_nil]
  show _ < 24
  omega

end RigControl.Core
