import Beacon.Proofs.Broadcasts
import Beacon.Proofs.ConfigAdvert
import Beacon.Proofs.Polling
import Beacon.Proofs.Rejection

/-!
# Room in the scan response

In configuration mode the scan response holds the name of the device and its
compressed web address.  A configuration is checked for either of them alone,
and what each may take up is more than there is for both: with a long name and a
long address a device cannot be configured at all.  Where both have room it is up
to the radio.
-/

namespace Beacon

theorem Bytes.length_toList_loop (text : ByteArray) (i : Nat) (read : Bytes) :
    (ByteArray.toList.loop text i read).length = read.length + (text.size - i) := by
  fun_induction ByteArray.toList.loop text i read with
  | case1 i read hmore ih =>
      rw [ih, List.length_cons]
      omega
  | case2 i read hend =>
      rw [List.length_reverse]
      omega

theorem Bytes.length_toUTF8 (text : String) : text.toUTF8.toList.length = text.utf8ByteSize := by
  have hlength := length_toList_loop text.toUTF8 0 []
  rw [List.length_nil, Nat.zero_add] at hlength
  exact hlength

namespace Advert

/-- What a scan response leaves for a name and a compressed address. -/
def sharedRoom : Nat := 23

theorem length_structureBytes (kind : UInt8) (content : Bytes) :
    (structureBytes kind content).length = content.length + 2 := rfl

theorem length_scanBytes (name : String) (tx : Int8) (address : EncodedUrl) :
    (completeName name.toUTF8.toList ++ serviceData (Frame.url tx address).toBytes).length =
      name.utf8ByteSize + address.bytes.length + 8 := by
  rw [List.length_append, completeName, serviceData, length_structureBytes, length_structureBytes,
    Bytes.length_toUTF8]
  simp only [Frame.service, Frame.toBytes, List.length_append, List.length_cons, List.length_nil]
  omega

theorem scanResponse_of_room {name : String} {address : EncodedUrl}
    (hroom : name.utf8ByteSize + address.bytes.length ≤ sharedRoom) (tx : Int8) :
    ∃ scan, scanResponse name (.url tx address) = .ok scan := by
  have hfits : (completeName name.toUTF8.toList ++
      serviceData (Frame.url tx address).toBytes).length ≤ capacity := by
    rw [length_scanBytes, capacity]
    rw [sharedRoom] at hroom
    omega
  simp only [scanResponse, Frame.encode_eq, bind, Except.bind, Bytes.within, if_pos hfits]
  exact ⟨_, rfl⟩

theorem scanResponse_of_crowded {name : String} {address : EncodedUrl}
    (hcrowded : sharedRoom < name.utf8ByteSize + address.bytes.length) (tx : Int8) :
    scanResponse name (.url tx address) = .error .invalidLength := by
  have hlong : ¬(completeName name.toUTF8.toList ++
      serviceData (Frame.url tx address).toBytes).length ≤ capacity := by
    rw [length_scanBytes, capacity]
    rw [sharedRoom] at hcrowded
    omega
  simp only [scanResponse, Frame.encode_eq, bind, Except.bind, Bytes.within, if_neg hlong]

end Advert

namespace Engine

variable {address : EncodedUrl}

theorem configAdvert_of_scan {s : State} {scan : Bytes} (hinterval : s.config.configInterval ≠ 0)
    (haddress : Url.compress s.config.configUrl = .ok address)
    (hscan : Advert.scanResponse s.config.deviceName (.url s.advLevels.top address) = .ok scan) :
    ∃ payload, Advert.ofConfigService = .ok payload ∧ configAdvert s = .ok (scan, payload) := by
  obtain ⟨payload, hpayload, -⟩ := Advert.ofConfigService_ok
  refine ⟨payload, hpayload, ?_⟩
  simp only [configAdvert, if_neg hinterval, haddress, hscan, hpayload, pure, Except.pure, bind,
    Except.bind]

/-- A name and an address that do not fit side by side keep configuration mode away, whatever the
radio would say. -/
theorem startConfig_of_crowded {e : Engine} (hinterval : e.state.config.configInterval ≠ 0)
    (haddress : Url.compress e.state.config.configUrl = .ok address)
    (hcrowded : Advert.sharedRoom < e.state.config.deviceName.utf8ByteSize + address.bytes.length)
    (now : Nat) : startConfig now e = ⟨.error .invalidLength, e, []⟩ := by
  apply startConfig_of_error
  simp only [configAdvert, if_neg hinterval, haddress, Advert.scanResponse_of_crowded hcrowded,
    bind, Except.bind]

/-- Of the two calls that the stack may refuse, it has refused one. -/
theorem ConfigOutcome.refused_call {scan payload : Bytes} {now : Nat} {e : Engine}
    {done : Done Engine (Except Fault Unit)} {fault : Fault}
    (h : ConfigOutcome scan payload now e done) (hfault : done.value = .error fault) :
    ∃ cause, fault = .radio cause ∧
      (.radio (.scanResponse scan) (some cause) ∈ done.output ∨
        .radio (.start payload) (some cause) ∈ done.output) := by
  cases h with
  | unscanned radio cause =>
      cases hfault
      exact ⟨cause, rfl, .inl (by simp)⟩
  | refused radio cause =>
      cases hfault
      exact ⟨cause, rfl, .inr (by simp [configCalls])⟩
  | entered radio hreports => cases hfault

theorem InPhase.refused_call {e : Engine} (hphase : e.InPhase) {scan payload : Bytes}
    (hadvert : configAdvert e.state = .ok (scan, payload)) {now : Nat} {fault : Fault}
    (hfault : (Engine.startConfig now e).value = .error fault) :
    ∃ cause, fault = .radio cause ∧
      (.radio (.scanResponse scan) (some cause) ∈ (Engine.startConfig now e).output ∨
        .radio (.start payload) (some cause) ∈ (Engine.startConfig now e).output) := by
  have hstart := startConfig_of_advert hadvert now
  rw [hstart, Done.value_after] at hfault
  have houtcome := hphase.leaveMode.enterConfig_outcome scan payload now
  obtain ⟨cause, hcause, hcall⟩ := houtcome.refused_call hfault
  rw [hstart, Done.output_after]
  exact ⟨cause, hcause, hcall.imp (List.mem_append_right _) (List.mem_append_right _)⟩

end Engine

namespace Device

variable {config : Config} {store : Store} {d : Device}

/-- What a device advertises in configuration mode can be built exactly if its name and its
compressed address have room side by side.  Then it is the radio that may refuse one of the two
payloads, and nothing else keeps the device from configuration mode; otherwise the device always
refuses, and stays as it was. -/
theorem startConfig_by_room (hreach : Reachable config store d) (now : Nat) :
    ∃ address payload,
      Url.compress config.configUrl = .ok address ∧
      (Frame.url d.1.state.advLevels.top address).encode.isOk ∧
      Advert.ofConfigService = .ok payload ∧
      (config.deviceName.utf8ByteSize + address.bytes.length ≤ Advert.sharedRoom →
        ∃ scan,
          Advert.scanResponse config.deviceName (.url d.1.state.advLevels.top address) = .ok scan ∧
          ∀ fault, (Engine.startConfig now d.1).value = .error fault →
            ∃ cause, fault = .radio cause ∧
              (.radio (.scanResponse scan) (some cause) ∈ (Engine.startConfig now d.1).output ∨
                .radio (.start payload) (some cause) ∈ (Engine.startConfig now d.1).output)) ∧
      (Advert.sharedRoom < config.deviceName.utf8ByteSize + address.bytes.length →
        Advert.scanResponse config.deviceName (.url d.1.state.advLevels.top address) =
            .error .invalidLength ∧
          Engine.startConfig now d.1 = ⟨.error .invalidLength, d.1, []⟩) := by
  have hsound := Config.sound_of_flaw? hreach.flaw?_eq_none
  have hconfig := hreach.config_eq
  obtain ⟨address, haddress⟩ : ∃ address, Url.compress config.configUrl = .ok address := by
    have hurl := hsound.configUrl
    cases hcompress : Url.compress config.configUrl with
    | error fault =>
        rw [hcompress] at hurl
        cases hurl
    | ok address => exact ⟨address, rfl⟩
  obtain ⟨payload, hpayload, -⟩ := Advert.ofConfigService_ok
  have hinterval := hsound.configInterval
  rw [← hconfig] at haddress hinterval ⊢
  refine ⟨address, payload, haddress, by rw [Frame.encode_eq]; rfl, hpayload, fun hroom => ?_,
    fun hcrowded => ⟨Advert.scanResponse_of_crowded hcrowded _, ?_⟩⟩
  · obtain ⟨scan, hscan⟩ := Advert.scanResponse_of_room hroom d.1.state.advLevels.top
    obtain ⟨payload', hpayload', hadvert⟩ := Engine.configAdvert_of_scan hinterval haddress hscan
    have hsame : payload' = payload := Except.ok.inj (hpayload'.symm.trans hpayload)
    rw [hsame] at hadvert
    exact ⟨scan, hscan, fun fault hfault => hreach.inPhase.refused_call hadvert hfault⟩
  · exact Engine.startConfig_of_crowded hinterval haddress hcrowded now

/-- The longest name that is let in beside an address of fourteen bytes. -/
def crowded : Config :=
  { Config.standard with configUrl := "https://example.com/setup" }

theorem flaw?_crowded : crowded.flaw? = none := by decide +kernel

theorem compress_crowded :
    ∃ address, Url.compress crowded.configUrl = .ok address ∧
      Advert.sharedRoom < crowded.deviceName.utf8ByteSize + address.bytes.length := by
  have hlengths : crowded.deviceName.utf8ByteSize = 14 ∧
      (Url.compress crowded.configUrl).toOption.map (·.bytes.length) = some 14 := by
    decide +kernel
  obtain ⟨hname, hlength⟩ := hlengths
  cases hcompress : Url.compress crowded.configUrl with
  | error fault =>
      rw [hcompress] at hlength
      cases hlength
  | ok address =>
      rw [hcompress] at hlength
      have hlength : address.bytes.length = 14 := Option.some.inj hlength
      refine ⟨address, rfl, ?_⟩
      rw [hname, hlength]
      decide

theorem startConfig_by_room_crowded :
    ∃ store d, Reachable crowded store d ∧
      Engine.startConfig 0 d.1 = ⟨.error .invalidLength, d.1, []⟩ := by
  obtain ⟨d, hbooted, -⟩ := exists_fresh flaw?_crowded (Radio.idle 100 10240 fun _ _ => none)
  obtain ⟨address, payload, haddress, -, -, -, hrefused⟩ :=
    startConfig_by_room (.boot hbooted) 0
  obtain ⟨address', haddress', hcrowded⟩ := compress_crowded
  obtain rfl : address' = address := Except.ok.inj (haddress'.symm.trans haddress)
  exact ⟨_, d, .boot hbooted, (hrefused hcrowded).2⟩

/-- Not every failure to enter configuration mode is the radio's: a configuration that is let in may
have too much to say. -/
theorem not_always_refused_by_radio :
    ¬∀ (config : Config) (store : Store) (d : Device) (now : Nat), config.flaw? = none →
      Reachable config store d → ∀ fault, (Engine.startConfig now d.1).value = .error fault →
        ∃ cause, fault = .radio cause := by
  intro halways
  obtain ⟨d, hbooted, -⟩ := exists_fresh flaw?_crowded (Radio.idle 100 10240 fun _ _ => none)
  have hreach : Reachable crowded _ d := .boot hbooted
  obtain ⟨address, haddress, hcrowded⟩ := compress_crowded
  have hrefused : Engine.startConfig 0 d.1 = ⟨.error .invalidLength, d.1, []⟩ := by
    rw [← hreach.config_eq] at haddress hcrowded
    refine Engine.startConfig_of_crowded ?_ haddress hcrowded 0
    rw [hreach.config_eq]
    decide
  obtain ⟨cause, hcause⟩ := halways _ _ d 0 flaw?_crowded hreach .invalidLength (by rw [hrefused])
  cases hcause

end Device

end Beacon
