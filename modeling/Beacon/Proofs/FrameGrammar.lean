import Beacon.Proofs.FrameCodec
import Beacon.Proofs.UrlCodec

/-!
# The grammar of frames

Which byte strings are frames can be said without reading them.  Every kind has
its type byte and a least length, telemetry has a version as well, and only of a
web address each byte counts.

What stands behind a frame is not looked at, so that a frame that was read is
written as the string cut to the frame's own length.
-/

namespace Beacon

/-! ## Telemetry written as it was read -/

theorem Telemetry.toBytes_ofBytes {bytes : Bytes} (h : 12 ≤ bytes.length) :
    (Telemetry.ofBytes bytes).toBytes = bytes.take 12 := by
  have hsplit : bytes.take 12 =
      bytes.take 2 ++ (bytes.drop 2).take 2 ++ (bytes.drop 4).take 4 ++ (bytes.drop 8).take 4 := by
    rw [← List.take_add, ← List.take_add, ← List.take_add]
  have hbattery : (bytes.take 2).length = 2 := List.length_take_of_le (by omega)
  have htemperature : ((bytes.drop 2).take 2).length = 2 := by
    rw [List.length_take, List.length_drop]
    omega
  have hcount : ((bytes.drop 4).take 4).length = 4 := by
    rw [List.length_take, List.length_drop]
    omega
  have huptime : ((bytes.drop 8).take 4).length = 4 := by
    rw [List.length_take, List.length_drop]
    omega
  rw [hsplit, toBytes, ofBytes, Bytes.bigEndian_word16 hbattery, UInt16.toUInt16_toInt16,
    Bytes.bigEndian_word16 htemperature, Bytes.bigEndian_word32 hcount,
    Bytes.bigEndian_word32 huptime]

theorem SealedTelemetry.toBytes_ofBytes {bytes : Bytes} (h : 16 ≤ bytes.length) :
    (SealedTelemetry.ofBytes bytes).toBytes = bytes.take 16 := by
  have hsplit : bytes.take 16 =
      bytes.take 12 ++ (bytes.drop 12).take 2 ++ (bytes.drop 14).take 2 := by
    rw [← List.take_add, ← List.take_add]
  have hsalt : 2 ≤ (bytes.drop 12).length := by
    rw [List.length_drop]
    omega
  have htag : 2 ≤ (bytes.drop 14).length := by
    rw [List.length_drop]
    omega
  rw [hsplit, toBytes, ofBytes, Bytes.toList_octets_of_le (by omega),
    Bytes.toList_octets_of_le hsalt, Bytes.toList_octets_of_le htag]

namespace Frame

/-! ## What is spelled as a frame -/

/-- The byte strings that are a frame, if they are not too long for one. -/
inductive Spelled : Bytes → Prop
  | uid {rest : Bytes} : 17 ≤ rest.length → Spelled (0x00 :: rest)
  | url {tx scheme : UInt8} {body : Bytes} :
      scheme ≤ 3 → (∀ byte ∈ body, byte < 0x0E ∨ (0x21 ≤ byte ∧ byte ≤ 0x7E)) →
      Spelled (0x10 :: tx :: scheme :: body)
  | tlm {data : Bytes} : 12 ≤ data.length → Spelled (0x20 :: 0x00 :: data)
  | etlm {data : Bytes} : 16 ≤ data.length → Spelled (0x20 :: 0x01 :: data)
  | eid {rest : Bytes} : 9 ≤ rest.length → Spelled (0x30 :: rest)

/-- The string cut to the length of the frame in it; the reserved bytes of an identity are zero. -/
def cut (body : Bytes) : Bytes :=
  if body.take 1 = [0x00] then body.take 18 ++ [0, 0]
  else if body.take 1 = [0x10] then body
  else if body.take 2 = [0x20, 0x00] then body.take 14
  else if body.take 2 = [0x20, 0x01] then body.take 18
  else body.take 10

/-- What is not too long is read by the kind that its type byte names. -/
theorem parse_cons {code : UInt8} {rest : Bytes} (hfits : (code :: rest).length ≤ capacity) :
    parse (code :: rest) =
      match FrameKind.ofCode code with
      | .error fault => .error (.frame fault)
      | .ok .uid => parseUid rest
      | .ok .url => parseUrl rest
      | .ok .tlm => parseTlm rest
      | .ok .eid => parseEid rest :=
  if_neg (Nat.not_lt.mpr hfits)

theorem parse_of_spelled {body : Bytes} (hspelled : Spelled body) (hfits : body.length ≤ capacity) :
    ∃ frame, parse body = .ok frame ∧ frame.toBytes = cut body := by
  cases hspelled with
  | @uid rest hlong =>
      obtain ⟨tx, id, rfl⟩ := List.exists_cons_of_length_pos (Nat.lt_of_lt_of_le (by decide) hlong)
      have hid : 16 ≤ id.length := Nat.le_of_succ_le_succ hlong
      refine ⟨.uid tx.toInt8 (Bytes.octets 16 id), ?_, ?_⟩
      · rw [parse_cons hfits]
        exact if_neg (Nat.not_lt.mpr hlong)
      · rw [toBytes, Bytes.toList_octets_of_le hid, UInt8.toUInt8_toInt8]
        rfl
  | @url tx scheme body hscheme hbody =>
      have hsound : (Url.expand (scheme :: body)).isOk :=
        (Url.expand_isOk_iff scheme body).mpr ⟨hscheme, hbody⟩
      have haddress : (scheme :: body).length ≤ Url.capacity :=
        Nat.le_of_succ_le_succ (Nat.le_of_succ_le_succ hfits)
      let frame : Frame := .url tx.toInt8 ⟨scheme :: body, haddress⟩
      have hbytes : frame.toBytes = 0x10 :: tx :: scheme :: body := by
        simp only [frame, toBytes, UInt8.toUInt8_toInt8]
        rfl
      -- All of it is the address, so that it is the writing of the frame that is read.
      refine ⟨frame, ?_, hbytes⟩
      rw [← hbytes]
      exact parse_toBytes hsound
  | @tlm data hlong =>
      refine ⟨.tlm (.ofBytes data), ?_, ?_⟩
      · rw [parse_cons hfits]
        exact if_neg (Nat.not_lt.mpr hlong)
      · rw [toBytes, Telemetry.toBytes_ofBytes hlong]
        rfl
  | @etlm data hlong =>
      refine ⟨.etlm (.ofBytes data), ?_, ?_⟩
      · rw [parse_cons hfits]
        exact if_neg (Nat.not_lt.mpr hlong)
      · rw [toBytes, SealedTelemetry.toBytes_ofBytes hlong]
        rfl
  | @eid rest hlong =>
      obtain ⟨tx, id, rfl⟩ := List.exists_cons_of_length_pos (Nat.lt_of_lt_of_le (by decide) hlong)
      have hid : 8 ≤ id.length := Nat.le_of_succ_le_succ hlong
      refine ⟨.eid tx.toInt8 (Bytes.octets 8 id), ?_, ?_⟩
      · rw [parse_cons hfits]
        exact if_neg (Nat.not_lt.mpr hlong)
      · rw [toBytes, Bytes.toList_octets_of_le hid, UInt8.toUInt8_toInt8]
        rfl

theorem spelled_of_parseUid {rest : Bytes} {frame : Frame} (h : parseUid rest = .ok frame) :
    Spelled (0x00 :: rest) := by
  unfold parseUid at h
  split at h
  next => cases h
  next hlong => exact .uid (Nat.not_lt.mp hlong)

theorem spelled_of_parseUrl {rest : Bytes} {frame : Frame} (h : parseUrl rest = .ok frame) :
    Spelled (0x10 :: rest) := by
  obtain ⟨tx, ⟨address, hfits⟩, rfl, -, hexpand⟩ := parseUrl_cases h
  cases address with
  | nil => exact absurd rfl (ne_nil_of_expand hexpand)
  | cons scheme body =>
      have haddress := (Url.expand_isOk_iff scheme body).mp hexpand
      exact .url haddress.1 haddress.2

theorem spelled_of_parseTlm {rest : Bytes} {frame : Frame} (h : parseTlm rest = .ok frame) :
    Spelled (0x20 :: rest) := by
  cases rest with
  | nil => cases h
  | cons version data =>
      rw [parseTlm] at h
      split at h
      next hversion =>
        subst hversion
        split at h
        next => cases h
        next hlong => exact .tlm (Nat.not_lt.mp hlong)
      next =>
        split at h
        next hversion =>
          subst hversion
          split at h
          next => cases h
          next hlong => exact .etlm (Nat.not_lt.mp hlong)
        next => cases h

theorem spelled_of_parseEid {rest : Bytes} {frame : Frame} (h : parseEid rest = .ok frame) :
    Spelled (0x30 :: rest) := by
  unfold parseEid at h
  split at h
  next => cases h
  next hlong => exact .eid (Nat.not_lt.mp hlong)

theorem fits_of_parse {body : Bytes} {frame : Frame} (h : parse body = .ok frame) :
    body.length ≤ capacity := by
  cases body with
  | nil => cases h
  | cons code rest =>
      rw [parse] at h
      split at h
      next => cases h
      next hfits => exact Nat.not_lt.mp hfits

theorem spelled_of_parse {body : Bytes} {frame : Frame} (h : parse body = .ok frame) :
    Spelled body := by
  have hfits := fits_of_parse h
  cases body with
  | nil => cases h
  | cons code rest =>
      rw [parse_cons hfits] at h
      cases hkind : FrameKind.ofCode code with
      | error fault =>
          rw [hkind] at h
          cases h
      | ok kind =>
          rw [hkind] at h
          rw [code_of_ofCode hkind]
          cases kind with
          | uid => exact spelled_of_parseUid h
          | url => exact spelled_of_parseUrl h
          | tlm => exact spelled_of_parseTlm h
          | eid => exact spelled_of_parseEid h

theorem parse_ok_iff (body : Bytes) :
    (∃ frame, parse body = .ok frame) ↔ body.length ≤ capacity ∧ Spelled body := by
  constructor
  · rintro ⟨frame, h⟩
    exact ⟨fits_of_parse h, spelled_of_parse h⟩
  · rintro ⟨hfits, hspelled⟩
    obtain ⟨frame, h, -⟩ := parse_of_spelled hspelled hfits
    exact ⟨frame, h⟩

theorem toBytes_of_parse {body : Bytes} {frame : Frame} (h : parse body = .ok frame) :
    frame.toBytes = cut body := by
  obtain ⟨spelled, hspelled, hbytes⟩ := parse_of_spelled (spelled_of_parse h) (fits_of_parse h)
  have hsame : spelled = frame := by
    rw [hspelled] at h
    exact Except.ok.inj h
  rw [← hsame, hbytes]

/-! ## The service identifier in front -/

theorem decode_service (body : Bytes) : decode (service ++ body) = parse body := by
  cases body with
  | nil => rfl
  | cons code rest =>
      have hlong : ¬(service ++ code :: rest).length < 3 := by
        simp only [service, List.length_append, List.length_cons, List.length_nil]
        omega
      have htake : (service ++ code :: rest).take 2 = service := List.take_left' rfl
      have hdrop : (service ++ code :: rest).drop 2 = code :: rest := List.drop_left' rfl
      rw [decode, if_neg hlong, if_pos htake, hdrop]

theorem decode_error_of_not_service {data : Bytes} (h : ¬service <+: data) :
    ∃ fault, decode data = .error fault := by
  unfold decode
  split
  next => exact ⟨_, rfl⟩
  next =>
    split
    next htake => exact absurd (htake ▸ List.take_prefix 2 data) h
    next => exact ⟨_, rfl⟩

/-- Reading and writing agree on every byte string.  The strings that are read are those of the
grammar; each is written again cut to its own length, which is read as the same frame.  Every frame
that may be held is read back, with the service identifier in front as well, and nothing is read
without that. -/
theorem grammar_and_round_trip :
    (∀ body, (∃ frame, parse body = .ok frame) ↔ body.length ≤ capacity ∧ Spelled body) ∧
    (∀ body frame, parse body = .ok frame →
      frame.encode = .ok (cut body) ∧ parse (cut body) = .ok frame) ∧
    (∀ frame : Frame, frame.Sound → ∃ bytes, frame.encode = .ok bytes ∧
      parse bytes = .ok frame ∧ decode (service ++ bytes) = .ok frame) ∧
    (∀ body, decode (service ++ body) = parse body) ∧
    (∀ data, ¬service <+: data → ∃ fault, decode data = .error fault) := by
  refine ⟨parse_ok_iff, ?_, ?_, decode_service, fun _ => decode_error_of_not_service⟩
  · intro body frame h
    rw [← toBytes_of_parse h]
    exact ⟨frame.encode_eq, parse_toBytes (sound_of_parse h)⟩
  · intro frame hsound
    exact ⟨frame.toBytes, frame.encode_eq, parse_toBytes hsound, decode_service_toBytes hsound⟩

end Frame

end Beacon
