import Beacon.Proofs.FrameCodec
import Beacon.Proofs.Phases
import Beacon.Proofs.UrlCodec

/-!
# The configuration advert

What is on air in configuration mode depends on the setup alone.  Building it
may fail, but never for a reason that is the radio's, and what is built always
fits into an advert, so that it is up to the stack whether it goes on air.
-/

namespace Beacon

theorem Bytes.within_cases (capacity : Nat) (bytes : Bytes) :
    (bytes.length ≤ capacity ∧ bytes.within capacity = .ok bytes) ∨
      bytes.within capacity = .error .invalidLength := by
  unfold Bytes.within
  split
  next hfits => exact .inl ⟨hfits, rfl⟩
  next => exact .inr rfl

theorem Advert.ofConfigService_ok :
    ∃ payload, ofConfigService = .ok payload ∧ payload.length ≤ capacity :=
  ⟨_, rfl, by decide⟩

namespace Engine

theorem configAdvert_cases (s : State) :
    (∃ fault, configAdvert s = .error fault ∧ ∀ cause, fault ≠ .radio cause) ∨
      ∃ scan payload, configAdvert s = .ok (scan, payload) ∧
        scan.length ≤ Advert.capacity ∧ payload.length ≤ Advert.capacity := by
  unfold configAdvert
  split
  next => exact .inl ⟨_, rfl, by simp⟩
  next =>
    cases hurl : Url.compress s.config.configUrl with
    | error fault =>
        refine .inl ⟨fault, rfl, ?_⟩
        rcases Url.compress_error hurl with rfl | ⟨_, rfl⟩ <;> simp
    | ok address =>
        simp only [Advert.scanResponse, Frame.encode_eq, pure, Except.pure, bind, Except.bind]
        rcases Bytes.within_cases Advert.capacity
            (Advert.completeName s.config.deviceName.toUTF8.toList ++
              Advert.serviceData (Frame.url s.advLevels.top address).toBytes) with
          ⟨hfits, hscan⟩ | hscan
        · obtain ⟨payload, hpayload, hlength⟩ := Advert.ofConfigService_ok
          rw [hscan, hpayload]
          exact .inr ⟨_, _, rfl, hfits, hlength⟩
        · rw [hscan]
          exact .inl ⟨_, rfl, by simp⟩

/-- No fault of the radio comes from building the configuration advert. -/
theorem configAdvert_ne_radio (s : State) (cause : RadioFault) :
    configAdvert s ≠ .error (.radio cause) := by
  rcases configAdvert_cases s with ⟨fault, h, hother⟩ | ⟨scan, payload, h, -⟩ <;> rw [h]
  · rintro ⟨⟩
    exact hother cause rfl
  · rintro ⟨⟩

theorem accepts_iff {s : State} {scan payload : Bytes}
    (hadvert : configAdvert s = .ok (scan, payload)) (n : Nat) (radio : Radio) :
    Accepts n scan payload radio ↔
      radio.verdict n (.scanResponse scan) = none ∧
        radio.verdict (n + 1) (.start payload) = none := by
  rcases configAdvert_cases s with ⟨fault, h, -⟩ | ⟨scan', payload', h, hscan, hpayload⟩
  · rw [h] at hadvert
    cases hadvert
  · rw [h] at hadvert
    cases hadvert
    simp only [Accepts, Radio.refusal?, Radio.oversized, decide_eq_true_iff]
    rw [if_neg (Nat.not_lt.mpr hscan), if_neg (Nat.not_lt.mpr hpayload)]

theorem configAdvert_eq_of_setup_eq {s t : State} (h : s.setup = t.setup) :
    configAdvert s = configAdvert t := by
  have hconfig : s.config = t.config := congrArg Setup.config h
  have hlevels : s.advLevels = t.advLevels := congrArg (fun setup => setup.settings.advLevels) h
  unfold configAdvert
  rw [hconfig, hlevels]

/-- A board with the standard name and address has a configuration advert. -/
theorem configAdvert_standard {s : State}
    (hinterval : s.config.configInterval = Config.standard.configInterval)
    (hurl : s.config.configUrl = Config.standard.configUrl)
    (hname : s.config.deviceName = Config.standard.deviceName)
    (hlevels : s.advLevels = Config.standard.advLevels) :
    ∃ scan payload, configAdvert s = .ok (scan, payload) := by
  have hok : (configAdvert s).isOk := by
    unfold configAdvert
    rw [hinterval, hurl, hname, hlevels]
    decide +kernel
  cases hadvert : configAdvert s with
  | error fault =>
      rw [hadvert] at hok
      exact absurd hok Bool.false_ne_true
  | ok advert => exact ⟨advert.1, advert.2, rfl⟩

end Engine

end Beacon
