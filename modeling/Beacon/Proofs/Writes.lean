import Beacon.Proofs.FrameCodec
import Beacon.Proofs.Requests

/-!
# Writes of attributes

Every write is refused, answers a challenge, changes the lock, changes the
active slot, moves to another slot or brings back the factory defaults.
`Attribute.Outcome` lists these once, with the state that each of them leaves;
what all writes have in common follows by going through the list.
-/

namespace Beacon

/-! ## What a slot may hold -/

/-- What it holds can be read. -/
def Slot.Sound (slot : Slot) : Prop :=
  ∀ frame, slot.frame = some frame → frame.Sound

def Slots.Sound (slots : Slots) : Prop :=
  ∀ i, (slots.table.value i).Sound

/-- A frame that a slot of this power may hold. -/
inductive Frame.Held (tx : Int8) : Frame → Prop
  | uid (id : Octets 16) : Held tx (.uid tx id)
  | url (address : EncodedUrl) :
      1 ≤ address.bytes.length → address.bytes.length ≤ 18 → (Url.expand address.bytes).isOk →
      Held tx (.url tx address)
  | tlm (telemetry : Telemetry) : Held tx (.tlm telemetry)
  | eid (id : Octets 8) : Held tx (.eid tx id)

theorem Frame.held_url {address : EncodedUrl} (hexpand : (Url.expand address.bytes).isOk)
    (tx : Int8) : (Frame.url tx address).Held tx := by
  have hpos := List.length_pos_iff.mpr (ne_nil_of_expand hexpand)
  exact .url address hpos address.fits hexpand

theorem Frame.Held.sound {tx : Int8} {frame : Frame} (h : frame.Held tx) : frame.Sound := by
  cases h with
  | uid id => trivial
  | url address hpos hfits hexpand => exact hexpand
  | tlm telemetry => trivial
  | eid id => trivial

theorem Frame.Held.setTx {old : Int8} {frame : Frame} (h : frame.Held old) (tx : Int8) :
    (frame.setTx tx).Held tx := by
  cases h with
  | uid id => exact .uid id
  | url address hpos hfits hexpand => exact .url address hpos hfits hexpand
  | tlm telemetry => exact .tlm telemetry
  | eid id => exact .eid id

theorem Slot.sound_clear (slot : Slot) : slot.clear.Sound := by
  intro frame hframe
  cases hframe

theorem Slot.sound_of_frame {slot : Slot} {frame : Frame} (hframe : slot.frame = some frame)
    (hsound : frame.Sound) : slot.Sound := by
  intro held hheld
  rw [hframe] at hheld
  cases hheld
  exact hsound

theorem Slot.Sound.setAdvTx {slot : Slot} (hsound : slot.Sound) (tx : Int8) :
    (slot.setAdvTx tx).Sound := by
  intro frame hframe
  obtain ⟨held, hheld, rfl⟩ := Option.map_eq_some_iff.mp hframe
  exact (Frame.sound_setTx tx held).mpr (hsound held hheld)

theorem Frame.sound_withoutId (frame : Frame) : frame.withoutId.Sound ↔ frame.Sound := by
  cases frame <;> exact Iff.rfl

theorem Slot.sound_settings {slot : Slot} : slot.settings.Sound ↔ slot.Sound := by
  constructor
  · intro hsound frame hframe
    refine frame.sound_withoutId.mp (hsound _ ?_)
    rw [settings, hframe, Option.map_some]
  · intro hsound frame hframe
    obtain ⟨held, hheld, rfl⟩ := Option.map_eq_some_iff.mp hframe
    exact held.sound_withoutId.mpr (hsound held hheld)

/-- Whether the frames of the slots can be read is seen from the settings. -/
theorem State.sound_of_settings_eq {s t : State} (h : t.settings = s.settings)
    (hsound : s.slots.Sound) : t.slots.Sound := by
  intro i
  have hslots : t.slots.table.map Slot.settings = s.slots.table.map Slot.settings :=
    congrArg Settings.slots h
  have hslot : (t.slots.table.value i).settings = (s.slots.table.value i).settings := by
    have hvalue := congrArg (PerSlot.value · i) hslots
    simpa only [PerSlot.value_map] using hvalue
  rw [← Slot.sound_settings, hslot, Slot.sound_settings]
  exact hsound i

/-- The slot under another key, with an identifier that is due. -/
def Slot.keyed (key : Key) (exponent : UInt8) (slot : Slot) : Slot :=
  { slot with
    key, exponent
    nextRotation := 0
    frame := some (.eid slot.advTx (Octets.zero 8)) }

/-- The key is put into the active slot, and telemetry is sealed under it next. -/
def State.keyed (key : Key) (exponent : UInt8) (s : State) : State :=
  { s with
    slots := s.slots.modifyActive (Slot.keyed key exponent)
    sealingCursor := s.slots.active }

theorem State.activeSlot_keyed (key : Key) (exponent : UInt8) (s : State) :
    (s.keyed key exponent).slots.activeSlot = s.slots.activeSlot.keyed key exponent :=
  PerSlot.value_put_self ..

theorem State.value_keyed_of_ne {s : State} {i : SlotIndex} (hi : s.slots.active ≠ i) (key : Key)
    (exponent : UInt8) :
    (s.keyed key exponent).slots.table.value i = s.slots.table.value i :=
  PerSlot.value_put_of_ne hi _ _

namespace Attribute

variable {α : Type}

/-! ## Writes of the active slot -/

/-- What a central can do to a slot. -/
inductive Edit (s : State) : (Slot → Slot) → Prop
  | interval (interval : UInt16) : Edit s fun slot => { slot with interval }
  | radioTx (level : Fin 4) :
      Edit s fun slot =>
        { slot with radioTx := s.radioLevels.get level }.setAdvTx (s.advLevels.get level)
  | advTx (tx : Int8) : Edit s (Slot.setAdvTx tx)
  | clear : Edit s Slot.clear
  | fill (frame : Int8 → Frame) : (∀ tx, (frame tx).Held tx) →
      Edit s fun slot => { slot with frame := some (frame slot.advTx) }
  | key (key : Key) (exponent : UInt8) : exponent ≤ Ephemeral.maxExponent →
      Edit s (Slot.keyed key exponent)

theorem Edit.sound {s : State} {f : Slot → Slot} (h : Edit s f) {slot : Slot}
    (hsound : slot.Sound) : (f slot).Sound := by
  cases h with
  | interval interval => exact hsound
  | radioTx level => exact Slot.Sound.setAdvTx hsound _
  | advTx tx => exact hsound.setAdvTx tx
  | clear => exact slot.sound_clear
  | fill frame hheld => exact Slot.sound_of_frame rfl (hheld slot.advTx).sound
  | key key exponent hexponent => exact Slot.sound_of_frame rfl trivial

/-- A refused write has changed nothing.  An accepted one gives `a` and has changed the active
slot. -/
def EditsActive (a : α) (s : State) (done : Done State (Except Fault α)) : Prop :=
  (∃ fault, done.value = .error fault ∧ done.state = s) ∨
    ∃ f, done.value = .ok a ∧ Edit s f ∧
      done.state.setup = { s with slots := s.slots.modifyActive f }.setup

theorem editsActive_writeInterval (data : Bytes) (s : State) :
    EditsActive (.intervalChanged s.slots.active) s (writeInterval data s) := by
  unfold writeInterval
  split
  next => exact .inr ⟨_, rfl, .interval _, rfl⟩
  next => exact .inl ⟨_, rfl, rfl⟩

theorem editsActive_writeRadioTx (data : Bytes) (s : State) :
    EditsActive .none s (writeRadioTx data s) := by
  unfold writeRadioTx
  split
  next => exact .inr ⟨_, rfl, .radioTx _, rfl⟩
  next => exact .inl ⟨_, rfl, rfl⟩

theorem editsActive_writeAdvTx (data : Bytes) (s : State) :
    EditsActive .none s (writeAdvTx data s) := by
  unfold writeAdvTx
  split
  next => exact .inr ⟨_, rfl, .advTx _, rfl⟩
  next => exact .inl ⟨_, rfl, rfl⟩

theorem editsActive_clear (s : State) :
    EditsActive () s
      ((do updateActive Slot.clear; return .ok () : Act State (Except Fault Unit)) s) :=
  .inr ⟨_, rfl, .clear, rfl⟩

theorem editsActive_writeUid (payload : Bytes) (s : State) :
    EditsActive () s (writeUid payload s) := by
  unfold writeUid
  split
  next => exact editsActive_clear s
  next =>
    split
    next => exact .inr ⟨_, rfl, .fill (.uid · (Bytes.octets 16 payload)) fun _ => .uid _, rfl⟩
    next => exact .inl ⟨_, rfl, rfl⟩

theorem editsActive_writeTlm (payload : Bytes) (s : State) :
    EditsActive () s (writeTlm payload s) := by
  unfold writeTlm
  split
  next => exact .inr ⟨_, rfl, .fill (fun _ => .tlm .initial) fun _ => .tlm _, rfl⟩
  next => exact .inl ⟨_, rfl, rfl⟩

theorem editsActive_writeUrl (payload : Bytes) (s : State) :
    EditsActive () s (writeUrl payload s) := by
  unfold writeUrl
  split
  next => exact editsActive_clear s
  next =>
    split
    next => exact .inl ⟨_, rfl, rfl⟩
    next hfits =>
      cases hexpand : Url.expand payload with
      | error fault => exact .inl ⟨_, rfl, rfl⟩
      | ok text =>
          have hisOk : (Url.expand payload).isOk := by
            rw [hexpand]
            rfl
          have haddress : EncodedUrl.ofBytes payload = .ok ⟨payload, Nat.not_lt.mp hfits⟩ := by
            rw [EncodedUrl.ofBytes, if_neg (Frame.ne_nil_of_expand hisOk),
              dif_pos (Nat.not_lt.mp hfits)]
          rw [haddress]
          exact .inr ⟨_, rfl, .fill (.url · ⟨payload, _⟩) (Frame.held_url hisOk), rfl⟩

theorem editsActive_writeEid (payload : Bytes) (now : Nat) (s : State) :
    EditsActive () s (writeEid payload now s) := by
  unfold writeEid
  split
  next => exact editsActive_clear s
  next =>
    simp only [Act.bind_apply, Act.get_apply, Done.after_nil]
    cases hkey : identityKeyOf s payload with
    | error fault => exact .inl ⟨_, rfl, rfl⟩
    | ok key =>
        simp only
        split
        next => exact .inl ⟨_, rfl, rfl⟩
        next hexponent =>
          refine .inr ⟨Slot.keyed key (payload.getLastD 0), rfl, ?_, ?_⟩
          · exact .key key _ (UInt8.not_lt.mp hexponent)
          · exact State.setup_rotateIfDue _ now _

theorem editsActive_writeFrame (code : UInt8) (payload : Bytes) (now : Nat) (s : State) :
    EditsActive () s (writeFrame code payload now s) := by
  unfold writeFrame
  cases FrameKind.ofCode code with
  | error fault => exact editsActive_clear s
  | ok kind =>
      cases kind with
      | uid => exact editsActive_writeUid payload s
      | url => exact editsActive_writeUrl payload s
      | tlm => exact editsActive_writeTlm payload s
      | eid => exact editsActive_writeEid payload now s

theorem editsActive_writeSlotData (data : Bytes) (now : Nat) (s : State) :
    EditsActive (.slotChanged s.slots.active) s (writeSlotData data now s) := by
  unfold writeSlotData
  split
  next => exact .inl ⟨_, rfl, rfl⟩
  next =>
    cases data with
    | nil => exact .inr ⟨_, rfl, .clear, rfl⟩
    | cons code payload =>
        simp only [Act.bind_apply, Act.get_apply, Done.after_nil]
        rcases editsActive_writeFrame code payload now s with
          ⟨fault, hvalue, hstate⟩ | ⟨f, hvalue, hedit, hsetup⟩
        · rw [hvalue]
          exact .inl ⟨fault, rfl, hstate⟩
        · rw [hvalue]
          exact .inr ⟨f, rfl, hedit, hsetup⟩

/-! ## The other writes -/

theorem writeActiveSlot_cases (data : Bytes) (s : State) :
    (∃ fault, writeActiveSlot data s = ⟨.error fault, s, []⟩) ∨
      ∃ i, writeActiveSlot data s =
        ⟨.ok .none, { s with slots := { s.slots with active := i } }, []⟩ := by
  unfold writeActiveSlot
  split
  next index =>
    simp only [Act.bind_apply, Act.get_apply, Done.after_nil, Slots.setActive]
    by_cases hindex : index.toNat < 3
    · rw [dif_pos hindex]
      exact .inr ⟨_, rfl⟩
    · rw [dif_neg hindex]
      exact .inl ⟨_, rfl⟩
  next => exact .inl ⟨_, rfl⟩

theorem writeConnectable_cases (data : Bytes) (s : State) :
    (∃ fault, writeConnectable data s = ⟨.error fault, s, []⟩) ∨
      ∃ on, writeConnectable data s = ⟨.ok .none, { s with remainConnectable := on }, []⟩ := by
  unfold writeConnectable
  split
  next => exact .inr ⟨_, rfl⟩
  next => exact .inl ⟨_, rfl⟩

theorem writeLock_cases (data : Bytes) (s : State) :
    (∃ fault, (writeLock data s).value = .error fault ∧ (writeLock data s).state = s) ∨
      ∃ lock : Lock, (lock.state = .locked → lock.token = none) ∧
        (writeLock data s).value = .ok (.lock lock.state) ∧
        (writeLock data s).state = { s with lock } := by
  simp only [writeLock, onLock, Act.bind_apply, Act.within_apply, Act.onFst_apply, Done.value_after,
    Done.state_after]
  rcases Lock.write_cases data s.lock with ⟨fault, h⟩ | ⟨next, hopen, h⟩ | ⟨key, hvalue, hstate⟩
  · rw [h]
    exact .inl ⟨fault, rfl, rfl⟩
  · rw [h]
    exact .inr ⟨{ s.lock with state := next }, fun hlocked => absurd hlocked hopen, rfl, rfl⟩
  · rw [hvalue, hstate]
    exact .inr ⟨⟨.locked, key, none⟩, fun _ => rfl, rfl, rfl⟩

theorem writeUnlock_state (data : Bytes) (s : State) :
    (writeUnlock data s).state =
      { s with
        lock := (Lock.respond data (s.lock, s.rng)).state.1
        rng := (Lock.respond data (s.lock, s.rng)).state.2 } := by
  simp only [writeUnlock, onLock, Act.bind_apply, Act.within_apply, Done.state_after]
  cases (Lock.respond data (s.lock, s.rng)).value <;> rfl

theorem writeUnlock_of_ok {data : Bytes} {s : State}
    (h : (Lock.respond data (s.lock, s.rng)).value = .ok ()) :
    (writeUnlock data s).value = .ok (.lock (writeUnlock data s).state.lock.state) := by
  simp only [writeUnlock, onLock, Act.bind_apply, Act.within_apply, Done.value_after,
    Done.state_after, h]
  rfl

theorem writeUnlock_of_error {data : Bytes} {s : State} {fault : Fault}
    (h : (Lock.respond data (s.lock, s.rng)).value = .error fault) :
    (writeUnlock data s).value = .error fault := by
  simp only [writeUnlock, onLock, Act.bind_apply, Act.within_apply, Done.value_after, h]
  rfl

theorem writeReset_cases (data : Bytes) (s : State) :
    (∃ fault, (writeReset data s).value = .error fault ∧ (writeReset data s).state = s) ∨
      (data = [0] ∧ (writeReset data s).value = .ok .none ∧ (writeReset data s).state = s) ∨
      ∃ flag slots identity rng, data = [flag] ∧ flag ≠ 0 ∧ Slots.ofConfig s.config = .ok slots ∧
        (writeReset data s).value = .ok .factoryReset ∧
        (writeReset data s).state =
          { s with
            slots, identity, rng
            lock := .fresh s.config.lockState s.config.unlockKey
            clock := .zero
            radioLevels := s.config.radioLevels
            advLevels := s.config.advLevels
            remainConnectable := s.config.remainConnectable
            sealingCursor := .first
            pendingAddress := none
            clockDirty := false } := by
  unfold writeReset
  split
  next flag =>
    split
    next hflag => exact .inr (.inl ⟨congrArg (fun b => [b]) hflag, rfl, rfl⟩)
    next hflag =>
      simp only [State.factoryReset, Act.bind_apply, Act.get_apply, Done.after_nil,
        Done.value_after, Done.state_after]
      cases hslots : Slots.ofConfig s.config with
      | error fault => exact .inl ⟨fault, rfl, rfl⟩
      | ok slots => exact .inr (.inr ⟨flag, slots, _, _, rfl, hflag, rfl, rfl, rfl⟩)
  next => exact .inl ⟨_, rfl, rfl⟩

/-! ## What a write can do -/

/-- What the engine is told after the attribute was written in one state and left in another. -/
def effectOf (attr : Attribute) (data : Bytes) (before after : State) : WriteEffect :=
  match attr with
  | .advInterval => .intervalChanged before.slots.active
  | .advSlotData => .slotChanged before.slots.active
  | .lockState => .lock after.lock.state
  | .unlock => .lock after.lock.state
  | .factoryReset => if data = [0] then .none else .factoryReset
  | _ => .none

theorem effectOf_eq_factoryReset {attr : Attribute} {data : Bytes} {before after : State} :
    effectOf attr data before after = .factoryReset ↔ attr = .factoryReset ∧ data ≠ [0] := by
  cases attr <;> simp [effectOf]

/-- What a write may come to: its result and the state that it leaves. -/
inductive Outcome (attr : Attribute) (data : Bytes) (s : State) :
    Except Fault WriteEffect → State → Prop
  | refused (fault : Fault) : Outcome attr data s (.error fault) s
  | mistaken (fault : Fault) :
      attr = .unlock → s.lock.isLocked →
      Outcome attr data s (.error fault) { s with lock.token := none }
  | unlocked (token : Block) (lock : Lock) (rng : Drbg) :
      attr = .unlock → s.lock.isLocked → s.lock.token = some token → data = token.toList →
      lock.state = .unlocked → lock.key = s.lock.key →
      Outcome attr data s (.ok (.lock lock.state)) { s with lock, rng }
  | locks (lock : Lock) :
      attr = .lockState → (lock.state = .locked → lock.token = none) →
      Outcome attr data s (.ok (.lock lock.state)) { s with lock }
  | edited {effect : WriteEffect} {t : State} (f : Slot → Slot) :
      effect = effectOf attr data s t → Edit s f →
      t.setup = { s with slots := s.slots.modifyActive f }.setup →
      Outcome attr data s (.ok effect) t
  | moved (i : SlotIndex) :
      attr = .activeSlot →
      Outcome attr data s (.ok .none) { s with slots := { s.slots with active := i } }
  | connectable (on : Bool) :
      attr = .remainConnectable →
      Outcome attr data s (.ok .none) { s with remainConnectable := on }
  | spared : attr = .factoryReset → data = [0] → Outcome attr data s (.ok .none) s
  | reset (slots : Slots) (identity : Identity) (rng : Drbg) :
      attr = .factoryReset → data ≠ [0] → Slots.ofConfig s.config = .ok slots →
      Outcome attr data s (.ok .factoryReset)
        { s with
          slots, identity, rng
          lock := .fresh s.config.lockState s.config.unlockKey
          clock := .zero
          radioLevels := s.config.radioLevels
          advLevels := s.config.advLevels
          remainConnectable := s.config.remainConnectable
          sealingCursor := .first
          pendingAddress := none
          clockDirty := false }

theorem Outcome.of_editsActive {attr : Attribute} {data : Bytes} {s : State} {effect : WriteEffect}
    {done : Done State (Except Fault WriteEffect)} (hedits : EditsActive effect s done)
    (heffect : effect = effectOf attr data s done.state) :
    Outcome attr data s done.value done.state := by
  rcases hedits with ⟨fault, hvalue, hstate⟩ | ⟨f, hvalue, hedit, hsetup⟩
  · rw [hvalue, hstate]
    exact .refused fault
  · rw [hvalue]
    exact .edited f heffect hedit hsetup

theorem outcome_writeUnlock (data : Bytes) (s : State) :
    Outcome .unlock data s (writeUnlock data s).value (writeUnlock data s).state := by
  by_cases hlocked : s.lock.isLocked
  · by_cases hlength : data.length = 16
    · by_cases hmatch : ∃ token, s.lock.token = some token ∧ token.toList = data
      · obtain ⟨token, htoken, rfl⟩ := hmatch
        obtain ⟨hvalue, hstate, hkey⟩ := Lock.respond_of_eq hlocked hlength htoken s.rng
        rw [writeUnlock_of_ok hvalue, writeUnlock_state]
        exact .unlocked token _ _ rfl hlocked htoken rfl hstate hkey
      · have hne : ∀ token, s.lock.token = some token → token.toList ≠ data :=
          fun token htoken heq => hmatch ⟨token, htoken, heq⟩
        obtain ⟨⟨fault, hvalue⟩, hstate⟩ := Lock.respond_of_ne hlocked hlength hne s.rng
        rw [writeUnlock_of_error hvalue, writeUnlock_state, hstate]
        exact .mistaken fault rfl hlocked
    · have hrespond := Lock.respond_of_length hlocked hlength s.rng
      rw [writeUnlock_of_error (congrArg Done.value hrespond), writeUnlock_state, hrespond]
      exact .refused _
  · have hrespond := Lock.respond_of_not_locked hlocked data s.rng
    rw [writeUnlock_of_error (congrArg Done.value hrespond), writeUnlock_state, hrespond]
    exact .refused _

theorem outcome_writeValue (attr : Attribute) (data : Bytes) (now : Nat) (s : State) :
    Outcome attr data s (writeValue attr data now s).value (writeValue attr data now s).state := by
  cases attr with
  | capabilities => exact .refused _
  | publicEcdhKey => exact .refused _
  | eidIdentityKey => exact .refused _
  | unlock => exact outcome_writeUnlock data s
  | advInterval => exact .of_editsActive (editsActive_writeInterval data s) rfl
  | radioTxPower => exact .of_editsActive (editsActive_writeRadioTx data s) rfl
  | advTxPower => exact .of_editsActive (editsActive_writeAdvTx data s) rfl
  | advSlotData => exact .of_editsActive (editsActive_writeSlotData data now s) rfl
  | activeSlot =>
      rcases writeActiveSlot_cases data s with ⟨fault, h⟩ | ⟨i, h⟩
      · rw [writeValue, h]
        exact .refused fault
      · rw [writeValue, h]
        exact .moved i rfl
  | remainConnectable =>
      rcases writeConnectable_cases data s with ⟨fault, h⟩ | ⟨on, h⟩
      · rw [writeValue, h]
        exact .refused fault
      · rw [writeValue, h]
        exact .connectable on rfl
  | lockState =>
      rw [writeValue]
      rcases writeLock_cases data s with ⟨fault, hvalue, hstate⟩ | ⟨lock, hclosed, hvalue, hstate⟩
      · rw [hvalue, hstate]
        exact .refused fault
      · rw [hvalue, hstate]
        exact .locks lock rfl hclosed
  | factoryReset =>
      rw [writeValue]
      rcases writeReset_cases data s with
        ⟨fault, hvalue, hstate⟩ | ⟨hdata, hvalue, hstate⟩ |
          ⟨flag, slots, identity, rng, hdata, hflag, hslots, hvalue, hstate⟩
      · rw [hvalue, hstate]
        exact .refused fault
      · rw [hvalue, hstate]
        exact .spared rfl hdata
      · rw [hvalue, hstate]
        exact .reset slots identity rng rfl (by simp [hdata, hflag]) hslots

theorem outcome_write (attr : Attribute) (offset : Nat) (data : Bytes) (now : Nat) (s : State) :
    Outcome attr data s (attr.write offset data now s).value
      (attr.write offset data now s).state := by
  cases hwrite : (attr.write offset data now s).value with
  | ok effect =>
      rw [← hwrite, (write_of_ok hwrite).2]
      exact outcome_writeValue attr data now s
  | error fault =>
      by_cases hoffset : offset = 0
      · by_cases hrefused : (s.lock.isLocked && !attr.writableWhileLocked) = true
        · rw [(write_of_refused hrefused offset data now).2]
          exact .refused fault
        · subst hoffset
          rw [← hwrite, write_of_admitted (Bool.eq_false_iff.mpr hrefused)]
          exact outcome_writeValue attr data now s
      · rw [(write_of_offset hoffset data now).2]
        exact .refused fault

section Outcomes

variable {attr : Attribute} {data : Bytes} {s t : State} {result : Except Fault WriteEffect}

/-- An open lock that a write has closed has no challenge. -/
theorem Outcome.token_of_locks (h : Outcome attr data s result t) (hopen : ¬s.lock.isLocked)
    (hlocks : t.lock.isLocked) : t.lock.token = none := by
  cases h with
  | refused fault => exact absurd hlocks hopen
  | mistaken fault hattr hlocked => exact absurd hlocked hopen
  | unlocked token lock rng hattr hlocked => exact absurd hlocked hopen
  | locks lock hattr hclosed => exact hclosed (of_decide_eq_true hlocks)
  | edited f heffect hedit hsetup =>
      have hlock : t.lock = s.lock := congrArg Setup.lock hsetup
      rw [hlock] at hlocks
      exact absurd hlocks hopen
  | moved i => exact absurd hlocks hopen
  | connectable on => exact absurd hlocks hopen
  | spared => exact absurd hlocks hopen
  | reset => rfl

/-- A refused write has changed nothing, except that a wrong answer uses up the challenge. -/
theorem Outcome.state_of_error {fault : Fault} (h : Outcome attr data s (.error fault) t) :
    t = s ∨ (attr = .unlock ∧ s.lock.isLocked ∧ t = { s with lock.token := none }) := by
  cases h with
  | refused => exact .inl rfl
  | mistaken fault hattr hlocked => exact .inr ⟨hattr, hlocked, rfl⟩

theorem Outcome.effect_eq {effect : WriteEffect} (h : Outcome attr data s (.ok effect) t) :
    effect = effectOf attr data s t := by
  cases h with
  | unlocked token lock rng hattr => rw [hattr, effectOf]
  | locks lock hattr => rw [hattr, effectOf]
  | edited f heffect => exact heffect
  | moved i hattr =>
      rw [hattr]
      rfl
  | connectable on hattr =>
      rw [hattr]
      rfl
  | spared hattr hdata => rw [hattr, effectOf, if_pos hdata]
  | reset slots identity rng hattr hdata => rw [hattr, effectOf, if_neg hdata]

/-- Only a reset that says so brings about a factory reset. -/
theorem effect_eq_factoryReset_iff {offset now : Nat} {effect : WriteEffect}
    (h : (attr.write offset data now s).value = .ok effect) :
    effect = .factoryReset ↔ attr = .factoryReset ∧ data ≠ [0] := by
  have houtcome := outcome_write attr offset data now s
  rw [h] at houtcome
  rw [houtcome.effect_eq]
  exact effectOf_eq_factoryReset

end Outcomes

end Attribute

end Beacon
