import Beacon.Proofs.Reports
import Beacon.Proofs.ScanRoom

/-!
# Payloads taken apart

A payload is a row of structures, and it is that in one way only: the length byte
says where the next structure begins.  So a receiver finds in it just what the
sender put there, as long as every content is short enough for its length byte.

Stored bytes carry one more length, that of the service data as a whole.  All of
these lengths hold for each frame, also for one that fills the payload.
-/

namespace Beacon

namespace Advert

/-- The payload is the row of these structures, of which each is a type and a content. -/
inductive Divided : Bytes → List (UInt8 × Bytes) → Prop
  | nil : Divided [] []
  | cons {length kind : UInt8} {content rest : Bytes} {parts : List (UInt8 × Bytes)}
      (hlength : length.toNat = content.length + 1) (hrest : Divided rest parts) :
      Divided (length :: kind :: (content ++ rest)) ((kind, content) :: parts)

theorem Divided.unique {payload : Bytes} {parts parts' : List (UInt8 × Bytes)}
    (h : Divided payload parts) (h' : Divided payload parts') : parts = parts' := by
  induction h generalizing parts' with
  | nil =>
      cases h'
      rfl
  | @cons length kind content rest parts hlength hrest ih =>
      -- The other row begins with the same length byte, hence with the same content.
      generalize htail : content ++ rest = tail at h'
      cases h' with
      | @cons _ _ content' rest' parts' hlength' hrest' =>
          have hsame : content.length = content'.length := by omega
          obtain ⟨rfl, rfl⟩ := List.append_inj htail hsame
          rw [ih hrest']

theorem Divided.iff_eq {payload : Bytes} {parts : List (UInt8 × Bytes)}
    (h : Divided payload parts) (parts' : List (UInt8 × Bytes)) :
    Divided payload parts' ↔ parts' = parts := by
  constructor
  · intro h'
    exact h'.unique h
  · rintro rfl
    exact h

theorem Divided.structureBytes_append {content rest : Bytes} {parts : List (UInt8 × Bytes)}
    (hrest : Divided rest parts) (hshort : content.length + 1 < 256) (kind : UInt8) :
    Divided (structureBytes kind content ++ rest) ((kind, content) :: parts) := by
  have hlength : (UInt8.ofNat (content.length + 1)).toNat = content.length + 1 :=
    UInt8.toNat_ofNat_of_lt' hshort
  exact .cons hlength hrest

theorem divided_serviceData (frame : Frame) :
    Divided (serviceData frame.toBytes) [(0x16, Frame.service ++ frame.toBytes)] := by
  have hshort : (Frame.service ++ frame.toBytes).length + 1 < 256 := by
    have hfits := frame.length_service_toBytes_le
    omega
  have hdivided := Divided.nil.structureBytes_append hshort 0x16
  rwa [List.append_nil] at hdivided

theorem divided_ofFrame (frame : Frame) :
    Divided (flags ++ services ++ serviceData frame.toBytes)
      [(0x01, [0x06]), (0x03, [0xAA, 0xFE]), (0x16, Frame.service ++ frame.toBytes)] := by
  have hservice : Frame.service.length + 1 < 256 := by decide
  have hflags : ([0x06] : Bytes).length + 1 < 256 := by decide
  have hservices := (divided_serviceData frame).structureBytes_append hservice 0x03
  rw [List.append_assoc]
  exact hservices.structureBytes_append hflags 0x01

theorem length_scanResponse (name : Bytes) (frame : Frame) :
    (completeName name ++ serviceData frame.toBytes).length =
      (2 + name.length) + (2 + (Frame.service ++ frame.toBytes).length) := by
  rw [List.length_append, completeName, serviceData, length_structureBytes,
    length_structureBytes]
  omega

theorem scanResponse_eq (name : String) (frame : Frame) :
    scanResponse name frame =
      Bytes.within capacity (completeName name.toUTF8.toList ++ serviceData frame.toBytes) := by
  rw [scanResponse, frame.encode_eq]
  rfl

/-- A name that has room is also short enough for its length byte. -/
theorem divided_scanResponse {name : Bytes} {frame : Frame}
    (hroom : (2 + name.length) + (2 + (Frame.service ++ frame.toBytes).length) ≤ capacity) :
    Divided (completeName name ++ serviceData frame.toBytes)
      [(0x09, name), (0x16, Frame.service ++ frame.toBytes)] := by
  have hshort : name.length + 1 < 256 := by
    rw [capacity] at hroom
    omega
  exact (divided_serviceData frame).structureBytes_append hshort 0x09

/-- A frame that can be read is sent and stored, and comes back from either.  Its payload has room
and is a row of just three structures; its stored form has room and begins with the number of bytes
that follow.  The scan response holds a name and the frame, and fails if and only if these need more
room than there is. -/
theorem frame_sent_and_stored {frame : Frame} (hsound : frame.Sound) :
    ∃ data, Frame.decode data = .ok frame ∧
      (∃ payload, ofFrame frame = .ok payload ∧ payload.length ≤ 31 ∧
        ∀ parts, Divided payload parts ↔
          parts = [(0x01, [0x06]), (0x03, [0xAA, 0xFE]), (0x16, data)]) ∧
      (∃ stored, StoredFrame.ofFrame frame = .ok stored ∧ stored.bytes.length ≤ 23 ∧
        (∃ length after, stored.bytes = length :: after ∧ length.toNat = after.length) ∧
        stored.decode = .ok (some frame)) ∧
      ∀ name : String,
        (scanResponse name frame = .error .invalidLength ↔
          31 < (2 + name.toUTF8.toList.length) + (2 + data.length)) ∧
        (scanResponse name frame ≠ .error .invalidLength →
          ∃ payload, scanResponse name frame = .ok payload ∧
            ∀ parts, Divided payload parts ↔
              parts = [(0x09, name.toUTF8.toList), (0x16, data)]) := by
  refine ⟨Frame.service ++ frame.toBytes, Frame.decode_service_toBytes hsound, ?_, ?_, ?_⟩
  · refine ⟨_, ofFrame_eq frame, ?_, (divided_ofFrame frame).iff_eq⟩
    have hfits := frame.length_service_toBytes_le
    rw [List.length_append, serviceData, length_structureBytes]
    change 7 + _ ≤ 31
    omega
  · obtain ⟨stored, hstored, length, hbytes, hlength⟩ := StoredFrame.ofFrame_eq frame
    have hdecode := StoredFrame.decode_of_bytes hbytes hlength
      (Frame.decode_service_toBytes hsound)
    exact ⟨stored, hstored, stored.fits, ⟨length, _, hbytes, hlength⟩, hdecode⟩
  · intro name
    have hlength := length_scanResponse name.toUTF8.toList frame
    by_cases hroom : (2 + name.toUTF8.toList.length) +
        (2 + (Frame.service ++ frame.toBytes).length) ≤ capacity
    · have hscan : scanResponse name frame =
          .ok (completeName name.toUTF8.toList ++ serviceData frame.toBytes) := by
        rw [scanResponse_eq, Bytes.within, if_pos (hlength ▸ hroom)]
      refine ⟨?_, fun _ => ⟨_, hscan, (divided_scanResponse hroom).iff_eq⟩⟩
      rw [hscan]
      exact iff_of_false (fun h => by cases h) (Nat.not_lt.mpr hroom)
    · have hscan : scanResponse name frame = .error .invalidLength := by
        rw [scanResponse_eq, Bytes.within, if_neg (hlength ▸ hroom)]
      exact ⟨iff_of_true hscan (Nat.not_le.mp hroom), fun h => absurd hscan h⟩

/-- An address of eighteen bytes, which leaves no room in the payload. -/
def longest : Frame :=
  .url (-20) ⟨0x01 :: List.replicate 17 0x61, by decide⟩

theorem longest_sent_and_stored :
    (∃ payload, ofFrame longest = .ok payload ∧ payload.length ≤ 31) ∧
      (∃ stored, StoredFrame.ofFrame longest = .ok stored ∧
        stored.decode = .ok (some longest)) := by
  have hsound : longest.Sound := by
    change (Url.expand (0x01 :: List.replicate 17 0x61)).isOk
    decide
  obtain ⟨data, -, ⟨payload, hpayload, hroom, -⟩, ⟨stored, hstored, -, -, hdecode⟩, -⟩ :=
    frame_sent_and_stored hsound
  exact ⟨⟨payload, hpayload, hroom⟩, stored, hstored, hdecode⟩

end Advert

end Beacon
