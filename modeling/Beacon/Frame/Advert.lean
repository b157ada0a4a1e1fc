import Beacon.Frame

/-!
# Advertising payloads

A payload is a row of structures, each with its length, its type and its
content, in at most thirty-one bytes.  A slot's payload holds the flags, the
list of services and the frame as service data; a scan response holds the name
of the device and a frame.
-/

namespace Beacon.Advert

/-- The largest payload of a legacy advert. -/
def capacity : Nat := 31

/-- One structure: the length counts the type and the content. -/
def structureBytes (kind : UInt8) (content : Bytes) : Bytes :=
  UInt8.ofNat (content.length + 1) :: kind :: content

/-- Discoverable, and without classic Bluetooth. -/
def flags : Bytes :=
  structureBytes 0x01 [0x06]

def services : Bytes :=
  structureBytes 0x03 Frame.service

def serviceData (body : Bytes) : Bytes :=
  structureBytes 0x16 (Frame.service ++ body)

def completeName (name : Bytes) : Bytes :=
  structureBytes 0x09 name

def ofFrame (frame : Frame) : Except Fault Bytes := do
  let body ← frame.encode
  Bytes.within capacity (flags ++ services ++ serviceData body)

def scanResponse (name : String) (frame : Frame) : Except Fault Bytes := do
  let body ← frame.encode
  Bytes.within capacity (completeName name.toUTF8.toList ++ serviceData body)

/-- The identifier of the configuration service as it stands on air. -/
def configService : Octets 16 :=
  #v[0x95, 0xE2, 0xED, 0xEB, 0x1B, 0xA0, 0x39, 0x8A, 0xDF, 0x4B, 0xD3, 0x8E, 0x00, 0x75, 0xC8, 0xA3]

def ofConfigService : Except Fault Bytes :=
  Bytes.within capacity (flags ++ structureBytes 0x07 configService.toList)

end Beacon.Advert
