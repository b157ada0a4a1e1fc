import Beacon.Frame.Advert

/-!
# Attributes

A central configures the beacon through twelve attributes, numbered from one.
The number is also one byte of the attribute's identifier.
-/

namespace Beacon

inductive Attribute where
  | capabilities
  | activeSlot
  | advInterval
  | radioTxPower
  | advTxPower
  | lockState
  | unlock
  | publicEcdhKey
  | eidIdentityKey
  | advSlotData
  | factoryReset
  | remainConnectable
  deriving DecidableEq, Repr

namespace Attribute

def all : List Attribute := [
  .capabilities, .activeSlot, .advInterval, .radioTxPower, .advTxPower, .lockState, .unlock,
  .publicEcdhKey, .eidIdentityKey, .advSlotData, .factoryReset, .remainConnectable]

def code : Attribute → UInt8
  | .capabilities => 1
  | .activeSlot => 2
  | .advInterval => 3
  | .radioTxPower => 4
  | .advTxPower => 5
  | .lockState => 6
  | .unlock => 7
  | .publicEcdhKey => 8
  | .eidIdentityKey => 9
  | .advSlotData => 10
  | .factoryReset => 11
  | .remainConnectable => 12

def ofCode (byte : UInt8) : Except Fault Attribute :=
  match all.find? (·.code = byte) with
  | some attr => .ok attr
  | none => .error .notPermitted

def name : Attribute → String
  | .capabilities => "Capabilities"
  | .activeSlot => "ActiveSlot"
  | .advInterval => "AdvInterval"
  | .radioTxPower => "RadioTxPower"
  | .advTxPower => "AdvTxPower"
  | .lockState => "LockState"
  | .unlock => "Unlock"
  | .publicEcdhKey => "PublicEcdhKey"
  | .eidIdentityKey => "EidIdentityKey"
  | .advSlotData => "AdvSlotData"
  | .factoryReset => "FactoryReset"
  | .remainConnectable => "RemainConnectable"

/-- The identifier as it stands on air: that of the service with the number put in. -/
def uuid (attr : Attribute) : Octets 16 :=
  Advert.configService.set 12 attr.code

end Attribute

end Beacon
