import Beacon.Telemetry
import Beacon.Url

/-!
# Frames

A beacon broadcasts one of four kinds of frame: a fixed identity, a web
address, telemetry (plain or sealed), or an identity that changes with time.
All but telemetry carry the signal power that a receiver would measure at the
beacon itself.

`Frame.encode` writes a frame from its type byte on and `Frame.parse` reads it;
`Frame.decode` expects the service identifier in front of it.
-/

namespace Beacon

inductive FrameKind where
  | uid
  | url
  | tlm
  | eid
  deriving DecidableEq, Repr

def FrameKind.code : FrameKind → UInt8
  | .uid => 0x00
  | .url => 0x10
  | .tlm => 0x20
  | .eid => 0x30

def FrameKind.ofCode (byte : UInt8) : Except FrameFault FrameKind :=
  if byte = 0x00 then .ok .uid
  else if byte = 0x10 then .ok .url
  else if byte = 0x20 then .ok .tlm
  else if byte = 0x30 then .ok .eid
  else .error (.unknownType byte)

def FrameKind.name : FrameKind → String
  | .uid => "Uid"
  | .url => "Url"
  | .tlm => "Tlm"
  | .eid => "Eid"

inductive Frame where
  /-- A namespace of ten bytes and an instance of six. -/
  | uid (tx : Int8) (id : Octets 16)
  | url (tx : Int8) (address : EncodedUrl)
  | tlm (telemetry : Telemetry)
  | etlm (telemetry : SealedTelemetry)
  | eid (tx : Int8) (id : Octets 8)
  deriving DecidableEq, Repr

namespace Frame

/-- The service identifier as it stands on air. -/
def service : Bytes := [0xAA, 0xFE]

/-- The largest frame that fits beside the other parts of an advert. -/
def capacity : Nat := 20

def plainVersion : UInt8 := 0x00

def sealedVersion : UInt8 := 0x01

def kind : Frame → FrameKind
  | .uid .. => .uid
  | .url .. => .url
  | .tlm _ => .tlm
  | .etlm _ => .tlm
  | .eid .. => .eid

def tx? : Frame → Option Int8
  | .uid tx _ => some tx
  | .url tx _ => some tx
  | .tlm _ => none
  | .etlm _ => none
  | .eid tx _ => some tx

/-- Replaces the power byte; telemetry has none. -/
def setTx (tx : Int8) : Frame → Frame
  | .uid _ id => .uid tx id
  | .url _ address => .url tx address
  | .tlm t => .tlm t
  | .etlm t => .etlm t
  | .eid _ id => .eid tx id

/-- The bytes of a frame; an identity frame ends with two reserved bytes. -/
def toBytes : Frame → Bytes
  | .uid tx id => FrameKind.uid.code :: tx.toUInt8 :: (id.toList ++ [0, 0])
  | .url tx address => FrameKind.url.code :: tx.toUInt8 :: address.bytes
  | .tlm t => FrameKind.tlm.code :: plainVersion :: t.toBytes
  | .etlm t => FrameKind.tlm.code :: sealedVersion :: t.toBytes
  | .eid tx id => FrameKind.eid.code :: tx.toUInt8 :: id.toList

def encode (frame : Frame) : Except Fault Bytes :=
  frame.toBytes.within capacity

/-- What a central reads of a frame: the reserved bytes are left out. -/
def slotData (frame : Frame) : Except Fault Bytes :=
  match frame with
  | .uid .. => (·.take 18) <$> frame.encode
  | _ => frame.encode

private def truncated : Except Fault Frame :=
  .error (.frame .truncated)

/-- Reads an identity after its type byte; the reserved bytes may be missing. -/
def parseUid (rest : Bytes) : Except Fault Frame :=
  if rest.length < 17 then truncated
  else .ok (.uid (rest.headD 0).toInt8 (Bytes.octets 16 rest.tail))

def parseUrl (rest : Bytes) : Except Fault Frame :=
  if rest.length < 2 then truncated
  else do
    let address ← EncodedUrl.ofBytes rest.tail
    let _ ← Url.expand address.bytes
    return .url (rest.headD 0).toInt8 address

def parseTlm : Bytes → Except Fault Frame
  | [] => truncated
  | version :: data =>
    if version = plainVersion then
      if data.length < 12 then truncated else .ok (.tlm (.ofBytes data))
    else if version = sealedVersion then
      if data.length < 16 then truncated else .ok (.etlm (.ofBytes data))
    else .error (.frame (.unknownTlmVersion version))

def parseEid (rest : Bytes) : Except Fault Frame :=
  if rest.length < 9 then truncated
  else .ok (.eid (rest.headD 0).toInt8 (Bytes.octets 8 rest.tail))

def parse : Bytes → Except Fault Frame
  | [] => truncated
  | code :: rest =>
    if capacity < rest.length + 1 then .error .invalidLength
    else
      match FrameKind.ofCode code with
      | .error fault => .error (.frame fault)
      | .ok .uid => parseUid rest
      | .ok .url => parseUrl rest
      | .ok .tlm => parseTlm rest
      | .ok .eid => parseEid rest

/-- Reads service data: the service identifier, then a frame. -/
def decode (data : Bytes) : Except Fault Frame :=
  if data.length < 3 then truncated
  else if data.take 2 = service then parse (data.drop 2)
  else .error (.frame .notEddystone)

end Frame

end Beacon
