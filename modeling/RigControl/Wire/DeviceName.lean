import RigControl.Core.Deploy
import RigControl.Lib.PrefixCode
import RigControl.Wire.Video

/-!
# The name of the device

`writeDeviceMeta` puts at most 63 bytes of the name into its field, `rc_demux_read_meta`
takes the field as a C string, and `rc_client_start` reports it. The field is specified as
UTF-8, and the server cuts bytes: a name that is too long ends in a part of a
character, unless a character happens to end at the cut.
-/

namespace RigControl.Wire

open RigControl.Core RigControl.Server RigControl.Lib

/-- `getBytes("UTF-8")`. -/
def utf8 (name : List Char) : List UInt8 := encode String.utf8EncodeChar name

/-- What of a field a C string is. -/
def cString (field : List UInt8) : List UInt8 := field.takeWhile (· ≠ 0)

/-- The name in a `device_meta`, as `rc_client_start` reports it. -/
def reportedName (m : RcDeviceMeta) : List UInt8 := cString m.deviceName

/-- The name is reported as it should be: as much of it as fits, in whole characters. -/
def ReportedWhole (name : List Char) (m : RcDeviceMeta) : Prop :=
  ∃ p, IsFitting String.utf8EncodeChar 63 name p ∧ reportedName m = utf8 p

/-- Nothing of the name is cut off, or the cut comes behind a whole character. -/
def CutsWhole (name : List Char) : Prop :=
  (utf8 name).length ≤ 63 ∨ ∃ q, q <+: name ∧ (utf8 q).length = 63

theorem utf8_prefixCode : PrefixCode String.utf8EncodeChar where
  ne_nil c := by
    have hlen := c.utf8Size_pos
    rw [← String.length_utf8EncodeChar] at hlen
    exact List.length_pos_iff.mp hlen
  eq_of_append := by
    intro c d x y h
    have hdecode := congrArg (fun bytes => bytes.toByteArray.utf8DecodeChar? 0) h
    simp only [List.toByteArray_append, ByteArray.utf8DecodeChar?_utf8EncodeChar_append] at hdecode
    exact Option.some.inj hdecode

theorem ofNat_ne_zero {n : Nat} (hpos : 0 < n) (hlt : n < 256) : 0 ≠ UInt8.ofNat n := by
  intro h
  have hval := congrArg UInt8.toNat h
  rw [UInt8.toNat_ofNat', Nat.mod_eq_of_lt hlt] at hval
  exact absurd hval.symm (Nat.ne_of_gt hpos)

/-- No character but NUL has a zero in its code. -/
theorem zero_notMem_utf8EncodeChar {c : Char} (h : c ≠ '\x00') : 0 ∉ String.utf8EncodeChar c := by
  have hpos : 0 < c.val.toNat := by
    refine Nat.pos_of_ne_zero fun hzero => h (Char.ext ?_)
    exact UInt32.toNat_inj.mp hzero
  simp only [String.utf8EncodeChar]
  split
  · simp only [List.mem_singleton]
    exact ofNat_ne_zero hpos (by omega)
  · split
    · simp only [List.mem_cons, List.not_mem_nil, or_false, not_or]
      exact ⟨ofNat_ne_zero (by omega) (by omega), ofNat_ne_zero (by omega) (by omega)⟩
    · split
      · simp only [List.mem_cons, List.not_mem_nil, or_false, not_or]
        exact ⟨ofNat_ne_zero (by omega) (by omega), ofNat_ne_zero (by omega) (by omega),
          ofNat_ne_zero (by omega) (by omega)⟩
      · simp only [List.mem_cons, List.not_mem_nil, or_false, not_or]
        exact ⟨ofNat_ne_zero (by omega) (by omega), ofNat_ne_zero (by omega) (by omega),
          ofNat_ne_zero (by omega) (by omega), ofNat_ne_zero (by omega) (by omega)⟩

theorem zero_notMem_utf8 {name : List Char} (h : '\x00' ∉ name) : 0 ∉ utf8 name := by
  intro hmem
  obtain ⟨c, hc, hzero⟩ := List.mem_flatMap.mp hmem
  exact zero_notMem_utf8EncodeChar (fun hnul => h (hnul ▸ hc)) hzero

theorem cString_nameField {name : List UInt8} (h : 0 ∉ name) :
    cString (nameField name) = name.take 63 := by
  have hne : ∀ b ∈ name.take (min name.length 63), decide (b ≠ 0) = true := by
    intro b hb
    exact decide_eq_true fun hzero => h (hzero ▸ List.mem_of_mem_take hb)
  rw [cString, nameField, List.takeWhile_append_of_pos hne]
  have hpad : 64 - min name.length 63 = (63 - min name.length 63) + 1 := by omega
  rw [hpad, List.replicate_succ, List.takeWhile_cons_of_neg (by simp), List.append_nil,
    List.take_eq_take_iff]
  omega

/-! ## What is read and reported -/

/-- The client has reported the name it has. -/
def Reported (c : RcClient) : Prop := (.ok, .name c.deviceMeta.deviceName) ∈ c.emitted

theorem giveUp_throws (env : Env) (code : RcStatus) (msg : String) {P : RcClient → Prop}
    {Q : Unit → RcClient → Prop} : Triple P (giveUp env code msg) Q fun _ _ => True :=
  (Triple.trivial _).bind fun _ => (Triple.trivial _).bind fun _ => .throw fun _ _ => .intro

theorem startThreads_reported (env : Env) :
    Triple Reported (startThreads env) (fun _ => Reported) fun _ _ => True := by
  refine .bind (Q := fun _ => Reported) (.modify fun c hc => hc) fun _ => ?_
  refine ask_spec (fun _ _ hc => hc) fun n => .ite (fun _ => ?_) fun _ => ?_
  · refine .bind (Q := fun _ => Reported) (.modify fun c hc => hc) fun _ => ?_
    refine .get_bind fun _ _ => .ite (fun _ => ?_) fun _ => .pure fun _ hc => hc
    exact ask_spec (fun _ _ hc => hc) fun n => .ite (fun _ => .modify fun _ hc => hc) fun _ =>
      .pure fun _ hc => hc
  · exact (Triple.trivial _).bind fun _ => (Triple.trivial _).bind fun _ => .throw fun _ _ => .intro

/-- A start that works has reported the name in the `device_meta` it has read. -/
theorem rcClientStart_reports (env : Env) :
    Triple (fun c => c.running = false) (rcClientStart env) (fun _ => Reported) fun _ _ => True := by
  refine .get_bind fun c hc => ?_
  rw [hc]
  refine (Triple.trivial _).attempt.bind fun r => ?_
  cases r with
  | error r => exact (Triple.trivial _).bind fun _ => .throw fun _ _ => .intro
  | ok u =>
    refine .get_bind_eq fun c _ => .ite (fun _ => giveUp_throws env _ _) fun _ => ?_
    cases codecFromMeta c.deviceMeta.codecId with
    | none => exact giveUp_throws env _ _
    | some codec =>
      refine .bind (Q := fun _ d => d.deviceMeta = c.deviceMeta)
        (.modify fun d hd => hd ▸ rfl) fun _ => ?_
      refine .bind (Q := fun _ => Reported) (.modify fun d hd => ?_) fun _ => ?_
      · have hmeta : d.deviceMeta = c.deviceMeta := hd
        simp [Reported, hmeta]
      refine ask_spec (fun _ _ hd => hd) fun n => ?_
      cases env.decoder codec n with
      | none => exact giveUp_throws env _ _
      | some hw =>
        refine .bind (Q := fun _ => Reported) (.modify fun d hd => hd) fun _ => ?_
        exact .bind (Q := fun _ => Reported) (.modify fun d hd => List.mem_append_left _ hd)
          fun _ => startThreads_reported env

theorem readMeta_name (codecId width height : UInt32) {name : List Char} (hnul : '\x00' ∉ name)
    {src : Stream} {rest : List UInt8}
    (hsrc : src.bytes = writeDeviceMeta codecId width height (utf8 name) ++ rest) :
    ∃ m src', rcDemuxReadMeta.exec src = (.ok m, src') ∧ reportedName m = (utf8 name).take 63 := by
  obtain ⟨src', hexec, -⟩ := (meta_decodes codecId width height (utf8 name)).full_never hsrc
  exact ⟨_, src', hexec, cString_nameField (zero_notMem_utf8 hnul)⟩

theorem reportedWhole_iff {name : List Char} {m : RcDeviceMeta}
    (h : reportedName m = (utf8 name).take 63) :
    (ReportedWhole name m ↔ CutsWhole name) ∧
      ((∃ q, reportedName m = utf8 q) ↔ CutsWhole name) := by
  obtain ⟨hsome, hcut⟩ := utf8_prefixCode.take_iff 63 name
  have hwhole : ReportedWhole name m ↔
      (utf8 name).take 63 = encode String.utf8EncodeChar (fitting String.utf8EncodeChar 63 name) := by
    have hfit := isFitting_fitting String.utf8EncodeChar 63 name
    constructor
    · rintro ⟨p, hp, heq⟩
      rw [← h, heq, hp.unique hfit]
      rfl
    · exact fun heq => ⟨_, hfit, h.trans heq⟩
  refine ⟨hwhole.trans hcut, ?_⟩
  rw [h]
  exact hsome.symm.trans hcut

/-- **When the name is cut between characters.** Of the bytes of a `device_meta`, however
they arrive, the client reads a name, and a start that works reports it. The name is as
much of the device's as fits in 63 bytes, in whole characters, exactly if it fits
altogether or a character ends at its 63rd byte; and in no other case is it UTF-8. -/
theorem device_name_whole_iff (codecId width height : UInt32) {name : List Char}
    (hnul : '\x00' ∉ name) {src : Stream} {rest : List UInt8}
    (hsrc : src.bytes = writeDeviceMeta codecId width height (utf8 name) ++ rest) :
    ∃ m src', rcDemuxReadMeta.exec src = (.ok m, src') ∧
      (∀ env cfg socketName c,
        (rcClientStart env).exec (rcClientCreate cfg socketName) = (.ok (), c) →
        c.deviceMeta = m → (.ok, .name m.deviceName) ∈ c.emitted) ∧
      (ReportedWhole name m ↔ CutsWhole name) ∧
      ((∃ q, reportedName m = utf8 q) ↔ CutsWhole name) := by
  obtain ⟨m, src', hexec, hname⟩ := readMeta_name codecId width height hnul hsrc
  refine ⟨m, src', hexec, ?_, reportedWhole_iff hname⟩
  rintro env cfg socketName c hstart rfl
  exact (rcClientStart_reports env).exec_ok rfl hstart

/-- 61 letters, a character of two bytes, and a letter that does not fit. -/
def fittingName : List Char := List.replicate 61 'a' ++ [Char.ofNat 0xE9, 'b']

theorem device_name_cut_behind :
    63 < (utf8 fittingName).length ∧
      ∃ m src', rcDemuxReadMeta.exec
          [.data (writeDeviceMeta 0x68323634 1080 2400 (utf8 fittingName))] = (.ok m, src') ∧
        ReportedWhole fittingName m := by
  obtain ⟨m, src', hexec, -, hwhole, -⟩ := @device_name_whole_iff 0x68323634 1080 2400 fittingName
    (by decide) [.data (writeDeviceMeta 0x68323634 1080 2400 (utf8 fittingName))] []
    (by simp [Stream.bytes, payload])
  have hcut : CutsWhole fittingName :=
    .inr ⟨List.replicate 61 'a' ++ [Char.ofNat 0xE9], ⟨['b'], rfl⟩, by decide⟩
  exact ⟨by decide, m, src', hexec, hwhole.mpr hcut⟩

/-- 62 letters, and a character of two bytes. -/
def accentedName : List Char := List.replicate 62 'a' ++ [Char.ofNat 0xE9]

theorem device_name_cut_inside :
    ∃ m src', rcDemuxReadMeta.exec
        [.data (writeDeviceMeta 0x68323634 1080 2400 (utf8 accentedName))] = (.ok m, src') ∧
      reportedName m = List.replicate 62 0x61 ++ [0xC3] ∧
      ¬ReportedWhole accentedName m ∧ ¬∃ q, reportedName m = utf8 q := by
  have hnul : '\x00' ∉ accentedName := by decide
  obtain ⟨m, src', hexec, hname⟩ := @readMeta_name 0x68323634 1080 2400 _ hnul
    [.data (writeDeviceMeta 0x68323634 1080 2400 (utf8 accentedName))] []
    (by simp [Stream.bytes, payload])
  have hcut : ¬CutsWhole accentedName := by
    rintro (hle | hfill)
    · revert hle
      decide
    · have hfit := exists_filling_iff.mp hfill
      revert hfit
      decide
  obtain ⟨hwhole, hutf8⟩ := reportedWhole_iff hname
  exact ⟨m, src', hexec, hname.trans (by decide), fun h => hcut (hwhole.mp h),
    fun h => hcut (hutf8.mp h)⟩

end RigControl.Wire
