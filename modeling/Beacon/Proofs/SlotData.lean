import Beacon.Proofs.Readings
import Beacon.Proofs.Rejection
import Beacon.Proofs.Reports

/-!
# Slot data

What a central writes into a slot is given here as a language: each value that is
accepted spells one content.  The content says what becomes of the slot, and what
a central is told when it reads the slot again.

A slot that gets a key gets an identifier with it.  Whoever reads it at the same
time is told the identifier of that time, whether the slot is brought up to date
once more or not: this would give the same one.
-/

namespace Beacon

theorem Bytes.octets_concat {n : Nat} {bytes : Bytes} (h : bytes.length = n + 1) :
    bytes = (octets n bytes).toList ++ [bytes.getLastD 0] := by
  rcases bytes.eq_nil_or_concat with rfl | ⟨front, last, rfl⟩
  · cases h
  · rw [List.length_concat] at h
    have hfront : front.length = n := Nat.succ.inj h
    rw [List.concat_eq_append, List.getLastD_concat, toList_octets_of_le (by simp [hfront]),
      List.take_left' hfront]

theorem FrameKind.ofCode_eq_error_iff {code : UInt8} :
    (∃ fault, FrameKind.ofCode code = .error fault) ↔
      code ≠ 0x00 ∧ code ≠ 0x10 ∧ code ≠ 0x20 ∧ code ≠ 0x30 := by
  unfold ofCode
  split_ifs <;> simp_all

/-- What a central has put into a slot. -/
inductive Content where
  | nothing
  | identity (id : Octets 16)
  | address (address : EncodedUrl)
  | telemetry
  | key (key : Key) (exponent : UInt8)

namespace Content

def isKey : Content → Bool
  | .key .. => true
  | _ => false

/-- The values that are accepted, each with its content.  A key comes wrapped under the unlock key,
or it is agreed on with a resolver. -/
inductive Spelled (s : State) : Bytes → Content → Prop
  | empty : Spelled s [] .nothing
  | bare {code : UInt8} : code = 0x00 ∨ code = 0x10 ∨ code = 0x30 → Spelled s [code] .nothing
  | unknown {code : UInt8} {rest : Bytes} :
      code ≠ 0x00 → code ≠ 0x10 → code ≠ 0x20 → code ≠ 0x30 → (code :: rest).length ≤ 34 →
      Spelled s (code :: rest) .nothing
  | identity (id : Octets 16) : Spelled s (0x00 :: id.toList) (.identity id)
  | address (address : EncodedUrl) : (Url.expand address.bytes).isOk →
      Spelled s (0x10 :: address.bytes) (.address address)
  | telemetry : Spelled s [0x20] .telemetry
  | wrapped (wrapped : Octets 16) {exponent : UInt8} : exponent ≤ 15 →
      Spelled s (0x30 :: (wrapped.toList ++ [exponent]))
        (.key (Aes.decrypt s.lock.key wrapped) exponent)
  | agreed (resolver : Octets 32) {exponent : UInt8} : exponent ≤ 15 →
      ¬(Curve25519.agree s.identity.secret resolver).isZero →
      Spelled s (0x30 :: (resolver.toList ++ [exponent]))
        (.key (identityKey (Curve25519.agree s.identity.secret resolver) resolver
          s.identity.publicKey) exponent)

theorem Spelled.exponent_le {s : State} {data : Bytes} {key : Key} {exponent : UInt8}
    (h : Spelled s data (.key key exponent)) : exponent ≤ Ephemeral.maxExponent := by
  cases h with
  | wrapped wrapped hexponent => exact hexponent
  | agreed resolver hexponent => exact hexponent

/-- What a central that reads the slot is told of it. -/
inductive Told (s : State) (now : Nat) : Content → Bytes → Prop
  | nothing : s.slots.activeSlot.frame = none → Told s now .nothing []
  | identity (id : Octets 16) :
      Told s now (.identity id) (0x00 :: s.slots.activeSlot.advTx.toUInt8 :: id.toList)
  | address (address : EncodedUrl) :
      Told s now (.address address) (0x10 :: s.slots.activeSlot.advTx.toUInt8 :: address.bytes)
  | telemetry {told : Telemetry} {frame : Frame} {cursor : SlotIndex} :
      told.batteryMv = s.telemetry.batteryMv → told.temperature = s.telemetry.temperature →
      told.pduCount = s.telemetry.pduCount → told.uptimeDs = Clock.uptimeDs now →
      s.Discloses now told frame cursor → Told s now .telemetry frame.toBytes
  | key {key : Key} {exponent : UInt8} {id : Octets 8} :
      s.slots.activeSlot.key = key → s.slots.activeSlot.exponent = exponent →
      Ephemeral.identifier key exponent (s.clock.time now) = .ok id →
      Told s now (.key key exponent) (identityReport exponent (s.clock.time now) id)

/-- The slot with the content in it. -/
def fill : Content → Slot → Slot
  | .nothing, slot => slot.clear
  | .identity id, slot => { slot with frame := some (.uid slot.advTx id) }
  | .address url, slot => { slot with frame := some (.url slot.advTx url) }
  | .telemetry, slot => { slot with frame := some (.tlm .initial) }
  | .key secret exponent, slot => slot.keyed secret exponent

/-- The state in which the content has been written; a key is put to use at once. -/
def written (now : Nat) (s : State) : Content → State
  | .key secret exponent => (State.rotateIfDue s.slots.active now (s.keyed secret exponent)).state
  | content => { s with slots := s.slots.modifyActive content.fill }

end Content

namespace Attribute

variable {s : State} {payload : Bytes} {now : Nat}

/-! ## What is accepted -/

/-- The write has been accepted and has left this content. -/
def Accepts (content : Content) (now : Nat) (s : State) (done : Done State (Except Fault Unit)) :
    Prop :=
  done.value = .ok () ∧ done.state = content.written now s

theorem identityKeyOf_of_wrapped (wrapped : Octets 16) (exponent : UInt8) (s : State) :
    identityKeyOf s (wrapped.toList ++ [exponent]) = .ok (Aes.decrypt s.lock.key wrapped) := by
  unfold identityKeyOf
  rw [if_pos (by simp), Bytes.octets_append]

theorem identityKeyOf_of_resolver {resolver : Octets 32}
    (hagreed : ¬(Curve25519.agree s.identity.secret resolver).isZero) (exponent : UInt8) :
    identityKeyOf s (resolver.toList ++ [exponent]) =
      .ok (identityKey (Curve25519.agree s.identity.secret resolver) resolver
        s.identity.publicKey) := by
  unfold identityKeyOf
  rw [if_neg (by simp), if_pos (by simp), Bytes.octets_append, Identity.agree, if_neg hagreed]

theorem accepts_writeUrl {address : EncodedUrl} (hexpand : (Url.expand address.bytes).isOk) :
    Accepts (.address address) now s (writeUrl address.bytes s) := by
  have hne := Frame.ne_nil_of_expand hexpand
  have hpos : address.bytes.length ≠ 0 := fun h => hne (List.length_eq_zero_iff.mp h)
  have haddress : EncodedUrl.ofBytes address.bytes = .ok address := by
    rw [EncodedUrl.ofBytes, if_neg hne, dif_pos address.fits]
  unfold writeUrl
  rw [if_neg hpos, if_neg (Nat.not_lt.mpr address.fits), haddress]
  cases htext : Url.expand address.bytes with
  | error fault =>
      rw [htext] at hexpand
      cases hexpand
  | ok text => exact ⟨rfl, rfl⟩

theorem accepts_writeEid {front : Bytes} {key : Key} {exponent : UInt8}
    (hkey : identityKeyOf s (front ++ [exponent]) = .ok key)
    (hexponent : exponent ≤ Ephemeral.maxExponent) :
    Accepts (.key key exponent) now s (writeEid (front ++ [exponent]) now s) := by
  have hlong : (front ++ [exponent]).length ≠ 0 := by simp
  unfold writeEid
  rw [if_neg hlong]
  simp only [Act.bind_apply, Act.get_apply, Done.after_nil, hkey, List.getLastD_concat,
    if_neg (UInt8.not_lt.mpr hexponent)]
  exact ⟨rfl, rfl⟩

/-- A value that is not too long is accepted if its frame is. -/
theorem writeSlotData_of_frame {code : UInt8} (hfits : (code :: payload).length ≤ 34)
    {content : Content} (h : Accepts content now s (writeFrame code payload now s)) :
    (writeSlotData (code :: payload) now s).value = .ok (.slotChanged s.slots.active) ∧
      (writeSlotData (code :: payload) now s).state = content.written now s := by
  have hlong : ¬maxLength < (code :: payload).length := Nat.not_lt.mpr hfits
  unfold writeSlotData
  rw [if_neg hlong]
  simp only [Act.bind_apply, Act.get_apply, Done.after_nil, Done.value_after, Done.state_after,
    h.1]
  exact ⟨rfl, h.2⟩

theorem writeSlotData_of_spelled {data : Bytes} {content : Content} (h : content.Spelled s data)
    (now : Nat) :
    (writeSlotData data now s).value = .ok (.slotChanged s.slots.active) ∧
      (writeSlotData data now s).state = content.written now s := by
  cases h with
  | empty => exact ⟨rfl, rfl⟩
  | bare hcode =>
      refine writeSlotData_of_frame (by simp) ?_
      rcases hcode with rfl | rfl | rfl
      · exact ⟨rfl, rfl⟩
      · exact ⟨rfl, rfl⟩
      · exact ⟨rfl, rfl⟩
  | @unknown code rest huid hurl htlm heid hfits =>
      refine writeSlotData_of_frame hfits ?_
      obtain ⟨fault, hcode⟩ := FrameKind.ofCode_eq_error_iff.mpr ⟨huid, hurl, htlm, heid⟩
      unfold writeFrame
      rw [hcode]
      exact ⟨rfl, rfl⟩
  | identity id =>
      refine writeSlotData_of_frame (by simp) ?_
      change Accepts _ now s (writeUid id.toList s)
      unfold writeUid
      rw [if_neg (by simp), if_pos (by simp), Bytes.octets_toList]
      exact ⟨rfl, rfl⟩
  | address address hexpand =>
      have hfits : (0x10 :: address.bytes).length ≤ 34 :=
        Nat.succ_le_succ (Nat.le_trans address.fits (by decide))
      exact writeSlotData_of_frame hfits (accepts_writeUrl hexpand)
  | telemetry => exact ⟨rfl, rfl⟩
  | wrapped wrapped hexponent =>
      refine writeSlotData_of_frame (by simp) ?_
      exact accepts_writeEid (identityKeyOf_of_wrapped wrapped _ s) hexponent
  | agreed resolver hexponent hagreed =>
      refine writeSlotData_of_frame (by simp) ?_
      exact accepts_writeEid (identityKeyOf_of_resolver hagreed _) hexponent

/-! ## Nothing else is accepted -/

theorem spelled_of_writeUid (h : (writeUid payload s).value = .ok ()) :
    ∃ content, Content.Spelled s (0x00 :: payload) content := by
  unfold writeUid at h
  split at h
  next hlength =>
    obtain rfl := List.length_eq_zero_iff.mp hlength
    exact ⟨_, .bare (.inl rfl)⟩
  next =>
    split at h
    next hlength =>
      rw [← Bytes.toList_octets hlength]
      exact ⟨_, .identity _⟩
    next => cases h

theorem spelled_of_writeUrl (h : (writeUrl payload s).value = .ok ()) :
    ∃ content, Content.Spelled s (0x10 :: payload) content := by
  unfold writeUrl at h
  split at h
  next hlength =>
    obtain rfl := List.length_eq_zero_iff.mp hlength
    exact ⟨_, .bare (.inr (.inl rfl))⟩
  next =>
    split at h
    next => cases h
    next hfits =>
      cases htext : Url.expand payload with
      | error fault =>
          rw [htext] at h
          cases h
      | ok text =>
          have hexpand : (Url.expand payload).isOk := by
            rw [htext]
            rfl
          exact ⟨_, .address ⟨payload, Nat.not_lt.mp hfits⟩ hexpand⟩

theorem spelled_of_writeTlm (h : (writeTlm payload s).value = .ok ()) :
    ∃ content, Content.Spelled s (0x20 :: payload) content := by
  unfold writeTlm at h
  split at h
  next hlength =>
    obtain rfl := List.length_eq_zero_iff.mp hlength
    exact ⟨_, .telemetry⟩
  next => cases h

theorem spelled_of_writeEid (h : (writeEid payload now s).value = .ok ()) :
    ∃ content, Content.Spelled s (0x30 :: payload) content := by
  by_cases hpayload : payload = []
  · rw [hpayload]
    exact ⟨_, .bare (.inr (.inr rfl))⟩
  · obtain ⟨key, hkey, hexponent, -⟩ := writeEid_cases hpayload h
    unfold identityKeyOf at hkey
    split at hkey
    next hlength =>
      rw [Bytes.octets_concat hlength]
      exact ⟨_, .wrapped _ hexponent⟩
    next =>
      split at hkey
      next hlength =>
        have hagreed : ¬(Curve25519.agree s.identity.secret (Bytes.octets 32 payload)).isZero := by
          intro hzero
          rw [Identity.agree, if_pos hzero] at hkey
          cases hkey
        rw [Bytes.octets_concat hlength]
        exact ⟨_, .agreed _ hexponent hagreed⟩
      next => cases hkey

theorem spelled_of_writeFrame {code : UInt8} (hfits : (code :: payload).length ≤ 34)
    (h : (writeFrame code payload now s).value = .ok ()) :
    ∃ content, Content.Spelled s (code :: payload) content := by
  unfold writeFrame at h
  cases hkind : FrameKind.ofCode code with
  | error fault =>
      obtain ⟨huid, hurl, htlm, heid⟩ := FrameKind.ofCode_eq_error_iff.mp ⟨fault, hkind⟩
      exact ⟨_, .unknown huid hurl htlm heid hfits⟩
  | ok kind =>
      rw [hkind] at h
      rw [Frame.code_of_ofCode hkind]
      cases kind with
      | uid => exact spelled_of_writeUid h
      | url => exact spelled_of_writeUrl h
      | tlm => exact spelled_of_writeTlm h
      | eid => exact spelled_of_writeEid h

theorem spelled_of_writeSlotData {data : Bytes} {effect : WriteEffect}
    (h : (writeSlotData data now s).value = .ok effect) :
    ∃ content, Content.Spelled s data content := by
  cases data with
  | nil => exact ⟨_, .empty⟩
  | cons code payload =>
      have hfits : (code :: payload).length ≤ 34 := by
        by_contra hlong
        have hlong : maxLength < (code :: payload).length := Nat.not_le.mp hlong
        unfold writeSlotData at h
        rw [if_pos hlong] at h
        cases h
      exact spelled_of_writeFrame hfits (writeSlotData_of_ok h).1

/-! ## What is read back -/

theorem value_read_of_none (hframe : s.slots.activeSlot.frame = none) (hopen : ¬s.lock.isLocked)
    (now : Nat) : (Attribute.advSlotData.read now s).value = .ok [] := by
  rw [read_of_open hopen]
  simp only [readValue, readSlotData, Act.bind_apply, Act.get_apply, Done.after_nil, hframe]
  rfl

theorem value_read_of_uid {tx : Int8} {id : Octets 16}
    (hframe : s.slots.activeSlot.frame = some (.uid tx id)) (hopen : ¬s.lock.isLocked)
    (now : Nat) :
    (Attribute.advSlotData.read now s).value = .ok (0x00 :: tx.toUInt8 :: id.toList) := by
  have hread : (Attribute.advSlotData.read now s).value = (Frame.uid tx id).slotData := by
    rw [read_of_open hopen]
    simp only [readValue, readSlotData, Act.bind_apply, Act.get_apply, Done.after_nil, hframe,
      Frame.kind]
    rfl
  have hbytes : (Frame.uid tx id).toBytes.take 18 = 0x00 :: tx.toUInt8 :: id.toList :=
    congrArg (fun rest => 0x00 :: tx.toUInt8 :: rest)
      (List.take_left' (by simp : id.toList.length = 16))
  rw [hread, ← hbytes]
  simp only [Frame.slotData, Frame.encode_eq]
  rfl

theorem value_read_of_url {tx : Int8} {address : EncodedUrl}
    (hframe : s.slots.activeSlot.frame = some (.url tx address)) (hopen : ¬s.lock.isLocked)
    (now : Nat) :
    (Attribute.advSlotData.read now s).value = .ok (0x10 :: tx.toUInt8 :: address.bytes) := by
  rw [read_of_open hopen]
  simp only [readValue, readSlotData, Act.bind_apply, Act.get_apply, Done.after_nil, hframe,
    Frame.kind]
  exact Frame.encode_eq (.url tx address)

theorem value_read_of_tlm {held : Telemetry}
    (hframe : s.slots.activeSlot.frame = some (.tlm held)) (hopen : ¬s.lock.isLocked)
    (now : Nat) :
    ∃ frame cursor, (Attribute.advSlotData.read now s).value = .ok frame.toBytes ∧
      s.Discloses now (s.currentTelemetry now) frame cursor := by
  have hdiscloses := State.discloses_telemetryFrame now s
  refine ⟨_, _, ?_, hdiscloses⟩
  rw [← hdiscloses.slotData_eq, read_of_open hopen]
  simp only [readValue, readSlotData, Act.bind_apply, Act.get_apply, Done.after_nil, hframe,
    Frame.kind]
  rfl

/-- Where the identifier is that of the time, bringing it up to date makes no difference. -/
theorem value_read_of_identifier {tx : Int8} {id : Octets 8}
    (hframe : s.slots.activeSlot.frame = some (.eid tx id))
    (hid : Ephemeral.identifier s.slots.activeSlot.key s.slots.activeSlot.exponent
      (s.clock.time now) = .ok id) (hopen : ¬s.lock.isLocked) :
    (Attribute.advSlotData.read now s).value =
      .ok (identityReport s.slots.activeSlot.exponent (s.clock.time now) id) := by
  rw [read_of_eid hframe hopen]
  rcases State.rotateIfDue_cases s.slots.active now s with
    ⟨notes, hkept⟩ | ⟨i, tx', old, id', hi, hframe', -, hid', hrotated⟩
  · exact (readEid_of_frame (congrArg Done.state hkept) hframe).1
  · obtain rfl : i = s.slots.active := Fin.ext hi
    obtain rfl : id' = id := Except.ok.inj (hid'.symm.trans hid)
    have hactive := s.activeSlot_rotated tx' id' now
    have hnew : (s.rotated s.slots.active tx' id' now).slots.activeSlot.frame =
        some (.eid tx' id') := by
      rw [hactive]
    have hvalue := (readEid_of_frame (congrArg Done.state hrotated) hnew).1
    rw [hactive] at hvalue
    exact hvalue

end Attribute

namespace Content

variable {s : State} {data : Bytes} {now later : Nat}

/-- The key has been put to use: the slot has the identifier of the time. -/
theorem written_key (key : Key) {exponent : UInt8} (hexponent : exponent ≤ Ephemeral.maxExponent)
    (now : Nat) (s : State) :
    ∃ id next, Ephemeral.identifier key exponent (s.clock.time now) = .ok id ∧
      ((Content.key key exponent).written now s).slots.activeSlot =
        { s.slots.activeSlot with
          key, exponent
          nextRotation := next
          frame := some (.eid s.slots.activeSlot.advTx id) } ∧
      ((Content.key key exponent).written now s).clock.prior = s.clock.prior := by
  obtain ⟨id, hid, hrotated⟩ := State.rotateIfDue_keyed key hexponent now s
  have hwritten : (Content.key key exponent).written now s =
      (s.keyed key exponent).rotated s.slots.active s.slots.activeSlot.advTx id now := hrotated
  have hvalue := (s.keyed key exponent).activeSlot_rotated s.slots.activeSlot.advTx id now
  rw [s.activeSlot_keyed] at hvalue
  rw [hwritten]
  exact ⟨id, _, hid, hvalue, rfl⟩

theorem active_written (content : Content) (now : Nat) (s : State) :
    (content.written now s).slots.active = s.slots.active ∧
      (content.written now s).lock = s.lock := by
  cases content with
  | key key exponent =>
      have hsetup := State.setup_rotateIfDue s.slots.active now (s.keyed key exponent)
      exact ⟨congrArg (·.settings.active) hsetup, congrArg Setup.lock hsetup⟩
  | _ => exact ⟨rfl, rfl⟩

theorem telemetry_written (content : Content) (now : Nat) (s : State) :
    (content.written now s).telemetry = s.telemetry := by
  cases content with
  | key key exponent =>
      change (State.rotateIfDue s.slots.active now (s.keyed key exponent)).state.telemetry = _
      rcases State.rotateIfDue_cases s.slots.active now (s.keyed key exponent) with
        ⟨notes, h⟩ | ⟨i, tx, old, id, -, -, -, -, h⟩
      · rw [h]
        rfl
      · rw [h]
        rfl
  | _ => rfl

theorem activeSlot_written {content : Content} (hkey : content.isKey = false) (now : Nat)
    (s : State) :
    (content.written now s).slots.activeSlot = content.fill s.slots.activeSlot := by
  cases content with
  | key key exponent => cases hkey
  | _ => exact PerSlot.value_put_self ..

theorem Spelled.powers_written {content : Content} (h : content.Spelled s data) (now : Nat) :
    (content.written now s).slots.activeSlot.interval = s.slots.activeSlot.interval ∧
      (content.written now s).slots.activeSlot.radioTx = s.slots.activeSlot.radioTx ∧
      (content.written now s).slots.activeSlot.advTx = s.slots.activeSlot.advTx := by
  cases content with
  | key key exponent =>
      obtain ⟨id, next, -, hactive, -⟩ := written_key key h.exponent_le now s
      rw [hactive]
      exact ⟨rfl, rfl, rfl⟩
  | _ =>
      rw [activeSlot_written rfl]
      exact ⟨rfl, rfl, rfl⟩

theorem told_of_fill {content : Content} (hkey : content.isKey = false) {t : State} {slot : Slot}
    (hslot : t.slots.activeSlot = content.fill slot) (hopen : ¬t.lock.isLocked) (later : Nat) :
    ∃ bytes, (Attribute.advSlotData.read later t).value = .ok bytes ∧
      content.Told t later bytes := by
  cases content with
  | nothing =>
      have hframe : t.slots.activeSlot.frame = none := by
        rw [hslot]
        rfl
      exact ⟨_, Attribute.value_read_of_none hframe hopen later, .nothing hframe⟩
  | identity id =>
      have hframe : t.slots.activeSlot.frame = some (.uid t.slots.activeSlot.advTx id) := by
        rw [hslot]
        rfl
      exact ⟨_, Attribute.value_read_of_uid hframe hopen later, .identity id⟩
  | address url =>
      have hframe : t.slots.activeSlot.frame = some (.url t.slots.activeSlot.advTx url) := by
        rw [hslot]
        rfl
      exact ⟨_, Attribute.value_read_of_url hframe hopen later, .address url⟩
  | telemetry =>
      have hframe : t.slots.activeSlot.frame = some (.tlm .initial) := by
        rw [hslot]
        rfl
      obtain ⟨frame, cursor, hvalue, hdiscloses⟩ :=
        Attribute.value_read_of_tlm hframe hopen later
      refine ⟨_, hvalue, ?_⟩
      apply Told.telemetry _ _ _ _ hdiscloses <;> rfl
  | key key exponent => cases hkey

theorem told_of_key {t : State} {tx : Int8} {id : Octets 8} {key : Key} {exponent : UInt8}
    (hframe : t.slots.activeSlot.frame = some (.eid tx id))
    (hkey : t.slots.activeSlot.key = key) (hexponent : t.slots.activeSlot.exponent = exponent)
    (hid : Ephemeral.identifier key exponent (t.clock.time now) = .ok id)
    (hopen : ¬t.lock.isLocked) :
    ∃ bytes, (Attribute.advSlotData.read now t).value = .ok bytes ∧
      (Content.key key exponent).Told t now bytes := by
  subst hkey hexponent
  exact ⟨_, Attribute.value_read_of_identifier hframe hid hopen, .key rfl rfl hid⟩

/-- What has been written is told, a key only at the time at which it was written. -/
theorem Spelled.told {content : Content} (h : content.Spelled s data) (hopen : ¬s.lock.isLocked)
    (hlater : content.isKey = false ∨ later = now) :
    ∃ bytes,
      (Attribute.advSlotData.read later (content.written now s).hush).value = .ok bytes ∧
        content.Told (content.written now s).hush later bytes := by
  have hopen' : ¬(content.written now s).hush.lock.isLocked := by
    rwa [State.hush, (active_written content now s).2]
  by_cases hkey : content.isKey = false
  · have hslot : (content.written now s).hush.slots.activeSlot =
        content.fill s.slots.activeSlot := activeSlot_written hkey now s
    exact told_of_fill hkey hslot hopen' later
  · obtain rfl : later = now := hlater.resolve_left hkey
    cases content with
    | key key exponent =>
        obtain ⟨id, next, hid, hactive, hprior⟩ := written_key key h.exponent_le later s
        rw [← Clock.time_of_prior_eq hprior later] at hid
        exact told_of_key (congrArg Slot.frame hactive) (congrArg Slot.key hactive)
          (congrArg Slot.exponent hactive) hid hopen'
    | _ => exact absurd rfl hkey

end Content

namespace Engine

variable {data : Bytes} {now : Nat} {e : Engine}

theorem writeSlotData_of_open (hopen : ¬e.state.lock.isLocked) (data : Bytes) (now : Nat) :
    Attribute.advSlotData.write 0 data now e.state = Attribute.writeSlotData data now e.state := by
  apply Attribute.write_of_admitted
  simp [hopen]

/-- What the engine does after slot data has been written leaves the slots as they are. -/
theorem state_writeAttribute_of_spelled (hopen : ¬e.state.lock.isLocked) {content : Content}
    (h : content.Spelled e.state data) (now : Nat) :
    (writeAttribute .advSlotData 0 data now e).value = .ok () ∧
      (writeAttribute .advSlotData 0 data now e).state.state =
        (content.written now e.state).hush := by
  obtain ⟨hvalue, hstate⟩ := Attribute.writeSlotData_of_spelled h now
  rw [← writeSlotData_of_open hopen] at hvalue hstate
  obtain ⟨hdone, hafter⟩ := writeAttribute_of_ok hvalue
  refine ⟨hdone, ?_⟩
  rw [hafter, ← hstate]
  exact congrArg (fun x : State × Bool => x.1.hush) (held_rearm e.state.slots.active now _)

theorem spelled_of_writeAttribute (hopen : ¬e.state.lock.isLocked)
    (h : (writeAttribute .advSlotData 0 data now e).value = .ok ()) :
    ∃ content, Content.Spelled e.state data content := by
  cases hwrite : (Attribute.advSlotData.write 0 data now e.state).value with
  | error fault =>
      rw [(writeAttribute_of_error hwrite).1] at h
      cases h
  | ok effect =>
      rw [writeSlotData_of_open hopen] at hwrite
      exact Attribute.spelled_of_writeSlotData hwrite

theorem state_writeAttribute_of_rejected {fault : Fault}
    (h : (writeAttribute .advSlotData 0 data now e).value = .error fault) :
    (writeAttribute .advSlotData 0 data now e).state = e := by
  cases hwrite : (Attribute.advSlotData.write 0 data now e.state).value with
  | error cause =>
      have hkept := Attribute.write_state_of_error hwrite
      rw [if_neg (by simp)] at hkept
      rw [(writeAttribute_of_error hwrite).2, hkept]
  | ok effect =>
      rw [(writeAttribute_of_ok hwrite).1] at h
      cases h

end Engine

namespace Device

variable {d : Device}

/-- Slot data is accepted if and only if it spells a content; otherwise the device stays as it was.
The slot that is active stays so, has the content and keeps its interval and its powers, and what
has been measured stays what it was.  It reads as the content for good, or if that is a key, at the
same time. -/
theorem slotData_accepted_and_read (hopen : ¬d.1.state.lock.isLocked) (data : Bytes) (now : Nat) :
    let done := serve (.write .advSlotData 0 data now) d
    (done.value = .done (.ok ()) ↔ ∃ content, Content.Spelled d.1.state data content) ∧
      (∀ fault, done.value = .done (.error fault) → done.state = d) ∧
      ∀ content, Content.Spelled d.1.state data content →
        let held := d.1.state.slots.activeSlot
        let filled := done.state.1.state.slots.activeSlot
        (done.state.1.state.slots.active = d.1.state.slots.active ∧
          filled.interval = held.interval ∧ filled.radioTx = held.radioTx ∧
          filled.advTx = held.advTx ∧ done.state.1.state.telemetry = d.1.state.telemetry) ∧
        ∀ later, content.isKey = false ∨ later = now →
          ∃ bytes, (serve (.read .advSlotData later) done.state).value = .value (.ok bytes) ∧
            content.Told done.state.1.state later bytes := by
  intro done
  have hvalue : done.value = .done (Engine.writeAttribute .advSlotData 0 data now d.1).value := rfl
  refine ⟨⟨fun haccepted => ?_, ?_⟩, fun fault hrejected => ?_, fun content h => ?_⟩
  · rw [hvalue] at haccepted
    exact Engine.spelled_of_writeAttribute hopen (Answer.done.inj haccepted)
  · rintro ⟨content, h⟩
    rw [hvalue, (Engine.state_writeAttribute_of_spelled hopen h now).1]
  · rw [hvalue] at hrejected
    have hkept := Engine.state_writeAttribute_of_rejected (Answer.done.inj hrejected)
    exact congrArg (fun e : Engine => (e, d.2)) hkept
  · have hstate : done.state.1.state = (content.written now d.1.state).hush :=
      (Engine.state_writeAttribute_of_spelled hopen h now).2
    rw [hstate]
    have hactive := (content.active_written now d.1.state).1
    obtain ⟨hinterval, hradioTx, hadvTx⟩ := h.powers_written now
    have htelemetry := content.telemetry_written now d.1.state
    refine ⟨⟨hactive, hinterval, hradioTx, hadvTx, htelemetry⟩, fun later hlater => ?_⟩
    obtain ⟨bytes, hread, htold⟩ := h.told hopen hlater
    rw [value_serve_read, hstate, hread]
    exact ⟨bytes, rfl, htold⟩

/-- A key of zeros, wrapped, for eight seconds. -/
def wrappedZeros : Bytes :=
  0x30 :: ((Octets.zero 16).toList ++ [3])

theorem key_accepted_and_read :
    ∃ d bytes, Reachable .standard ⟨.memory none, fun _ _ => none, 0⟩ d ∧
      (serve (.write .advSlotData 0 wrappedZeros 5000) d).value = .done (.ok ()) ∧
      (serve (.read .advSlotData 5000)
        (serve (.write .advSlotData 0 wrappedZeros 5000) d).state).value = .value (.ok bytes) ∧
      (Content.key (Aes.decrypt d.1.state.lock.key (Octets.zero 16)) 3).Told
        (serve (.write .advSlotData 0 wrappedZeros 5000) d).state.1.state 5000 bytes := by
  have hflaw : Config.standard.flaw? = none := by decide +kernel
  obtain ⟨d, hbooted, -, slots, identity, rng, -, hsetup⟩ :=
    exists_fresh hflaw (Radio.idle 100 10240 fun _ _ => none)
  have hlock : d.1.state.lock = .fresh .unlocked Config.standard.unlockKey :=
    congrArg Setup.lock hsetup
  have hopen : ¬d.1.state.lock.isLocked := by
    rw [hlock]
    exact Bool.false_ne_true
  have hspelled : Content.Spelled d.1.state wrappedZeros
      (.key (Aes.decrypt d.1.state.lock.key (Octets.zero 16)) 3) :=
    .wrapped (Octets.zero 16) (by decide)
  obtain ⟨haccepted, -, hfilled⟩ := slotData_accepted_and_read hopen wrappedZeros 5000
  obtain ⟨bytes, hread, htold⟩ := (hfilled _ hspelled).2 5000 (.inr rfl)
  exact ⟨d, bytes, .boot hbooted, haccepted.mpr ⟨_, hspelled⟩, hread, htold⟩

end Device

end Beacon
