import Beacon.Frame.Stored
import Beacon.Proofs.ByteStrings

/-!
# Frames written and read back

Every frame that a slot may hold is read back from its bytes, and from the form
in which it is stored.  Only a web address has to be looked at: its bytes have to
expand.
-/

namespace Beacon

namespace Frame

/-- What it holds can be read: a web address expands. -/
def Sound : Frame → Prop
  | .url _ address => (Url.expand address.bytes).isOk
  | _ => True

theorem sound_setTx (tx : Int8) (frame : Frame) : (frame.setTx tx).Sound ↔ frame.Sound := by
  cases frame <;> exact Iff.rfl

theorem length_telemetry (t : Telemetry) : t.toBytes.length = 12 := by
  simp [Telemetry.toBytes]

theorem length_sealedTelemetry (t : SealedTelemetry) : t.toBytes.length = 16 := by
  simp [SealedTelemetry.toBytes]

theorem length_toBytes_le (frame : Frame) : frame.toBytes.length ≤ capacity := by
  cases frame with
  | uid tx id => simp [toBytes, capacity]
  | url tx address =>
      have hfits := address.fits
      simp only [toBytes, List.length_cons, capacity, Url.capacity] at hfits ⊢
      omega
  | tlm t => simp [toBytes, capacity, length_telemetry]
  | etlm t => simp [toBytes, capacity, length_sealedTelemetry]
  | eid tx id => simp [toBytes, capacity]

theorem encode_eq (frame : Frame) : frame.encode = .ok frame.toBytes := by
  rw [encode, Bytes.within, if_pos frame.length_toBytes_le]

theorem length_service_toBytes_le (frame : Frame) : (service ++ frame.toBytes).length ≤ 22 := by
  have hfits := frame.length_toBytes_le
  rw [capacity] at hfits
  rw [List.length_append, service, List.length_cons, List.length_cons, List.length_nil]
  omega

/-! ## Reading back -/

theorem code_of_ofCode {code : UInt8} {kind : FrameKind} (h : FrameKind.ofCode code = .ok kind) :
    code = kind.code := by
  unfold FrameKind.ofCode at h
  repeat' split at h
  all_goals
    cases h
    try assumption

theorem telemetry_ofBytes_toBytes (t : Telemetry) : Telemetry.ofBytes t.toBytes = t := by
  obtain ⟨battery, temperature, count, uptime⟩ := t
  simp only [Telemetry.ofBytes, Telemetry.toBytes]
  generalize hfirst : Bytes.bigEndian 2 battery.toNat = first
  generalize hsecond : Bytes.bigEndian 2 temperature.toUInt16.toNat = second
  generalize hthird : Bytes.bigEndian 4 count.toNat = third
  generalize hfourth : Bytes.bigEndian 4 uptime.toNat = fourth
  have hlength₁ : first.length = 2 := by simp [← hfirst]
  have hlength₂ : second.length = 2 := by simp [← hsecond]
  have hlength₃ : third.length = 4 := by simp [← hthird]
  have hlength₄ : fourth.length = 4 := by simp [← hfourth]
  have htake₁ : (first ++ second ++ third ++ fourth).take 2 = first := by
    simp [hlength₁]
  have htake₂ : ((first ++ second ++ third ++ fourth).drop 2).take 2 = second := by
    simp [hlength₁, hlength₂]
  have htake₃ : ((first ++ second ++ third ++ fourth).drop 4).take 4 = third := by
    simp [List.take_append, List.drop_append, hlength₁, hlength₂, hlength₃]
  have htake₄ : ((first ++ second ++ third ++ fourth).drop 8).take 4 = fourth := by
    rw [List.drop_left' (by simp [hlength₁, hlength₂, hlength₃])]
    exact List.take_of_length_le (Nat.le_of_eq hlength₄)
  rw [htake₁, htake₂, htake₃, htake₄, ← hfirst, ← hsecond, ← hthird, ← hfourth,
    Bytes.word16_bigEndian, Bytes.word16_bigEndian, Bytes.word32_bigEndian,
    Bytes.word32_bigEndian, Int16.toInt16_toUInt16]

theorem sealedTelemetry_ofBytes_toBytes (t : SealedTelemetry) :
    SealedTelemetry.ofBytes t.toBytes = t := by
  obtain ⟨ciphertext, salt, tag⟩ := t
  have hsalt : (ciphertext.toList ++ salt.toList ++ tag.toList).drop 12 =
      salt.toList ++ tag.toList := by
    rw [List.append_assoc]
    exact List.drop_left' (by simp)
  have htag : (ciphertext.toList ++ salt.toList ++ tag.toList).drop 14 = tag.toList :=
    List.drop_left' (by simp)
  simp only [SealedTelemetry.ofBytes, SealedTelemetry.toBytes, hsalt, htag, Bytes.octets_append,
    Bytes.octets_toList]
  rw [List.append_assoc, Bytes.octets_append]

theorem ne_nil_of_expand {bytes : Bytes} (hsound : (Url.expand bytes).isOk) : bytes ≠ [] := by
  intro hnil
  rw [hnil] at hsound
  exact Bool.false_ne_true hsound

theorem parseUrl_toBytes (tx : Int8) {address : EncodedUrl}
    (hsound : (Url.expand address.bytes).isOk) :
    parseUrl (tx.toUInt8 :: address.bytes) = .ok (.url tx address) := by
  have hne := ne_nil_of_expand hsound
  have hlong : ¬(tx.toUInt8 :: address.bytes).length < 2 := by
    have hpos := List.length_pos_iff.mpr hne
    simp only [List.length_cons]
    omega
  have haddress : EncodedUrl.ofBytes address.bytes = .ok address := by
    rw [EncodedUrl.ofBytes, if_neg hne, dif_pos address.fits]
  cases hexpand : Url.expand address.bytes with
  | error fault =>
      rw [hexpand] at hsound
      exact absurd hsound Bool.false_ne_true
  | ok text =>
      rw [parseUrl, if_neg hlong, List.tail_cons, haddress, List.headD_cons,
        Int8.toInt8_toUInt8]
      change (Url.expand address.bytes >>= fun _ => _) = _
      rw [hexpand]
      rfl

/-- A frame is read back from its bytes. -/
theorem parse_toBytes {frame : Frame} (hsound : frame.Sound) : parse frame.toBytes = .ok frame := by
  have hlength := frame.length_toBytes_le
  cases frame with
  | uid tx id =>
      simp [toBytes, parse, capacity, FrameKind.code, FrameKind.ofCode, parseUid,
        Bytes.octets_append]
  | url tx address =>
      simp only [toBytes, List.length_cons] at hlength
      simp only [toBytes, parse, List.length_cons, Nat.not_lt.mpr hlength, if_false]
      exact parseUrl_toBytes tx hsound
  | tlm t =>
      simp [toBytes, parse, capacity, FrameKind.code, FrameKind.ofCode, parseTlm,
        length_telemetry, telemetry_ofBytes_toBytes]
  | etlm t =>
      simp [toBytes, parse, capacity, FrameKind.code, FrameKind.ofCode, parseTlm, plainVersion,
        sealedVersion, length_sealedTelemetry, sealedTelemetry_ofBytes_toBytes]
  | eid tx id =>
      simp [toBytes, parse, capacity, FrameKind.code, FrameKind.ofCode, parseEid]

theorem decode_service_toBytes {frame : Frame} (hsound : frame.Sound) :
    decode (service ++ frame.toBytes) = .ok frame := by
  have hlong : ¬(service ++ frame.toBytes).length < 3 := by
    cases frame <;> simp [service, toBytes]
  have htake : (service ++ frame.toBytes).take 2 = service := List.take_left' rfl
  have hdrop : (service ++ frame.toBytes).drop 2 = frame.toBytes := List.drop_left' rfl
  rw [decode, if_neg hlong, if_pos htake, hdrop, parse_toBytes hsound]

/-! ## What is read is sound -/

theorem bytes_of_encodedUrl {bytes : Bytes} {address : EncodedUrl}
    (h : EncodedUrl.ofBytes bytes = .ok address) : address.bytes = bytes := by
  unfold EncodedUrl.ofBytes at h
  split at h
  next => cases h
  next =>
    split at h
    next =>
      cases h
      rfl
    next => cases h

theorem parseUrl_cases {rest : Bytes} {frame : Frame} (h : parseUrl rest = .ok frame) :
    ∃ tx address, rest = tx :: address.bytes ∧ frame = .url tx.toInt8 address ∧
      (Url.expand address.bytes).isOk := by
  unfold parseUrl at h
  split at h
  next => cases h
  next hlong =>
    cases rest with
    | nil => exact absurd Nat.two_pos hlong
    | cons tx body =>
        cases haddress : EncodedUrl.ofBytes body with
        | error fault =>
            rw [List.tail_cons, haddress] at h
            cases h
        | ok address =>
            cases hexpand : Url.expand address.bytes with
            | error fault =>
                simp only [List.tail_cons, haddress, hexpand, bind, Except.bind] at h
                cases h
            | ok text =>
                simp only [List.tail_cons, haddress, hexpand, bind, Except.bind] at h
                cases h
                refine ⟨tx, address, ?_, rfl, ?_⟩
                · rw [bytes_of_encodedUrl haddress]
                · rw [hexpand]
                  rfl

theorem sound_of_parseUrl {rest : Bytes} {frame : Frame} (h : parseUrl rest = .ok frame) :
    frame.Sound := by
  obtain ⟨tx, address, -, rfl, hsound⟩ := parseUrl_cases h
  exact hsound

/-- A web address that does not expand is not read. -/
theorem sound_of_parse {bytes : Bytes} {frame : Frame} (h : parse bytes = .ok frame) :
    frame.Sound := by
  cases bytes with
  | nil => cases h
  | cons code rest =>
      simp only [parse] at h
      split at h
      next => cases h
      next =>
        cases hkind : FrameKind.ofCode code with
        | error fault =>
            rw [hkind] at h
            cases h
        | ok kind =>
            rw [hkind] at h
            cases kind with
            | url => exact sound_of_parseUrl h
            | uid =>
                change parseUid rest = _ at h
                unfold parseUid at h
                split at h
                next => cases h
                next =>
                  cases h
                  trivial
            | eid =>
                change parseEid rest = _ at h
                unfold parseEid at h
                split at h
                next => cases h
                next =>
                  cases h
                  trivial
            | tlm =>
                change parseTlm rest = _ at h
                unfold parseTlm at h
                repeat' split at h
                all_goals
                  cases h
                  try trivial

end Frame

namespace StoredFrame

/-- What is stored for a frame says how long it is. -/
theorem ofFrame_eq (frame : Frame) :
    ∃ stored, ofFrame frame = .ok stored ∧ ∃ length : UInt8,
      stored.bytes = length :: (Frame.service ++ frame.toBytes) ∧
        length.toNat = (Frame.service ++ frame.toBytes).length := by
  have hlength := frame.length_service_toBytes_le
  have hfits : (UInt8.ofNat (Frame.service.length + frame.toBytes.length) ::
      (Frame.service ++ frame.toBytes)).length ≤ 23 := by
    rw [List.length_cons]
    omega
  refine ⟨⟨_, hfits⟩, ?_, _, rfl, ?_⟩
  · rw [ofFrame, frame.encode_eq]
    change ofBytes (UInt8.ofNat (Frame.service.length + frame.toBytes.length) :: _) = _
    rw [ofBytes, dif_pos hfits]
  · rw [List.length_append] at hlength ⊢
    rw [UInt8.toNat_ofNat_of_lt']
    exact Nat.lt_of_le_of_lt hlength (by decide)

/-- Bytes that say how long they are give the frame that they hold. -/
theorem decode_of_bytes {stored : StoredFrame} {length : UInt8} {data : Bytes} {frame : Frame}
    (hbytes : stored.bytes = length :: data) (hlength : length.toNat = data.length)
    (hdata : Frame.decode data = .ok frame) : stored.decode = .ok (some frame) := by
  have hdeclared : stored.declaredLength = data.length := by
    rw [declaredLength, hbytes, List.headD_cons, hlength]
  have hservice : stored.serviceData = .ok data := by
    simp only [serviceData, hdeclared, hbytes, List.length_cons, List.drop_succ_cons,
      List.drop_zero]
    rw [if_neg (by omega), List.take_length]
  have hheld : stored.isCleared = false := by
    cases data with
    | nil => cases hdata
    | cons byte rest => simp [isCleared, hdeclared]
  rw [decode, hheld, hservice]
  change some <$> Frame.decode data = _
  rw [hdata]
  rfl

theorem decode_ofFrame {frame : Frame} (hsound : frame.Sound) :
    ∃ stored, ofFrame frame = .ok stored ∧ stored.decode = .ok (some frame) := by
  obtain ⟨stored, hstored, length, hbytes, hlength⟩ := ofFrame_eq frame
  exact ⟨stored, hstored, decode_of_bytes hbytes hlength (Frame.decode_service_toBytes hsound)⟩

theorem sound_of_decode {stored : StoredFrame} {frame : Frame}
    (h : stored.decode = .ok (some frame)) : frame.Sound := by
  unfold decode at h
  split at h
  next => cases h
  next =>
    cases hdata : stored.serviceData with
    | error fault =>
        rw [hdata] at h
        cases h
    | ok data =>
        cases hframe : Frame.decode data with
        | error fault =>
            simp only [hdata, hframe, bind, Except.bind] at h
            cases h
        | ok held =>
            simp only [hdata, hframe, bind, Except.bind] at h
            cases h
            unfold Frame.decode at hframe
            split at hframe
            next => cases hframe
            next =>
              split at hframe
              next => exact Frame.sound_of_parse hframe
              next => cases hframe

end StoredFrame

end Beacon
