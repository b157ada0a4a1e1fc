import Beacon.Crypto.Ephemeral
import Beacon.Frame
import Beacon.Lock.State
import Beacon.PerSlot

/-!
# Board configuration

What a board is built with, and what a factory reset brings back: the content
of the three slots, the power tables, the lock and the way to configure the
beacon.  `Config.validate` says which of these values can be used.
-/

namespace Beacon

/-- Power levels of the radio in dBm, one for each of its settings. -/
abbrev PowerLevels := Vector Int8 4

def PowerLevels.top (levels : PowerLevels) : Int8 := levels[3]

structure Config where
  slotKinds : PerSlot FrameKind
  /-- Advertising intervals in milliseconds; zero keeps a slot off air. -/
  slotIntervals : PerSlot UInt16
  slotRadioTx : PerSlot Int8
  slotExponents : PerSlot UInt8
  slotUrls : PerSlot String
  slotUids : PerSlot (Octets 16)
  slotKeys : PerSlot Key
  /-- Output levels of the radio, lowest first. -/
  radioLevels : PowerLevels
  /-- For each output level the power a receiver would measure at the beacon. -/
  advLevels : PowerLevels
  unlockKey : Key
  lockState : LockState
  deviceName : String
  configUrl : String
  configInterval : UInt16
  /-- Seconds in configuration mode before beaconing starts. -/
  configTimeout : UInt32
  /-- Milliseconds from a disconnection until beaconing resumes. -/
  resumeDelay : UInt32
  remainConnectable : Bool
  deriving DecidableEq

namespace Config

/-- The longest device name, in bytes, that leaves room for a web address beside it. -/
def maxDeviceName : Nat := 14

private def ladderBytes (first step : UInt8) : Octets 16 :=
  Vector.ofFn fun i => first + step * UInt8.ofNat i.val

def standard : Config where
  slotKinds := #v[.url, .url, .eid]
  slotIntervals := #v[700, 0, 0]
  slotRadioTx := #v[-8, -8, -8]
  slotExponents := #v[10, 10, 10]
  slotUrls := #v["http://c.pw3b.com", "https://www.mbed.com/", "https://www.github.com/"]
  slotUids := #v[ladderBytes 0x00 0x01, ladderBytes 0x00 0x10, ladderBytes 0x00 0x11]
  slotKeys := #v[ladderBytes 0xA0 0x01, ladderBytes 0xB0 0x01, ladderBytes 0xC0 0x01]
  radioLevels := #v[-40, -20, -8, 4]
  advLevels := #v[-50, -30, -18, -6]
  unlockKey := ladderBytes 0x00 0x11
  lockState := .unlocked
  deviceName := "Eddystone v3.0"
  configUrl := "http://c.pw3b.com"
  configInterval := 1000
  configTimeout := 60
  resumeDelay := 500
  remainConnectable := false

def slotUrlUsable (config : Config) (i : SlotIndex) : Bool :=
  config.slotKinds.value i ≠ .url || (Url.compress (config.slotUrls.value i)).isOk

def flaw? (config : Config) : Option ConfigFault :=
  if maxDeviceName < config.deviceName.utf8ByteSize then some .deviceNameTooLong
  else if config.configInterval = 0 then some .zeroConfigInterval
  else if config.slotExponents.any (Ephemeral.maxExponent < ·) then some .exponentTooLarge
  else if ¬(config.radioLevels[0] < config.radioLevels[1] ∧
      config.radioLevels[1] < config.radioLevels[2] ∧
      config.radioLevels[2] < config.radioLevels[3]) then some .levelsNotAscending
  else if ¬(Url.compress config.configUrl).isOk then some .configUrlNotEncodable
  else if ¬SlotIndex.all.all config.slotUrlUsable then some .slotUrlNotEncodable
  else none

def validate (config : Config) : Except Fault Unit :=
  match config.flaw? with
  | some fault => .error (.config fault)
  | none => .ok ()

end Config

end Beacon
