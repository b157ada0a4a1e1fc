import Beacon.Bytes

/-!
# Faults

Every operation of the beacon that can be refused names its reason here.  The
texts are fixed in one function per type; a fault of a lower layer keeps its
own text behind the name of the layer.
-/

namespace Beacon

/-- Why bytes are no frame, or a text no frame content. -/
inductive FrameFault where
  | truncated
  | notEddystone
  | unknownType (byte : UInt8)
  | unknownTlmVersion (byte : UInt8)
  | unsupportedScheme
  | unknownUrlScheme (byte : UInt8)
  | invalidUrlByte (byte : UInt8)
  deriving DecidableEq, Repr

def FrameFault.message : FrameFault → String
  | .truncated => "truncated frame"
  | .notEddystone => "not an Eddystone service UUID"
  | .unknownType byte => "unknown frame type " ++ hexByte byte
  | .unknownTlmVersion byte => "unknown TLM version " ++ hexByte byte
  | .unsupportedScheme => "URL scheme not encodable"
  | .unknownUrlScheme byte => "unknown URL scheme " ++ hexByte byte
  | .invalidUrlByte byte => "reserved URL byte " ++ hexByte byte

inductive CryptoFault where
  /-- The shared secret was zero: the peer sent a point of low order. -/
  | keyAgreementFailed
  | entropyUnavailable
  | invalidExponent (exponent : UInt8)
  deriving DecidableEq, Repr

def CryptoFault.message : CryptoFault → String
  | .keyAgreementFailed => "key agreement failed"
  | .entropyUnavailable => "entropy source unavailable"
  | .invalidExponent exponent => "rotation exponent " ++ toString exponent.toNat ++ " out of range"

inductive ConfigFault where
  | malformedJson
  | deviceNameTooLong
  | zeroConfigInterval
  | exponentTooLarge
  | levelsNotAscending
  | configUrlNotEncodable
  | slotUrlNotEncodable
  /-- A reason given by the board's own start-up checks. -/
  | board (reason : String)
  deriving DecidableEq, Repr

def ConfigFault.message : ConfigFault → String
  | .malformedJson => "malformed beacon config JSON"
  | .deviceNameTooLong => "device name too long"
  | .zeroConfigInterval => "config advertising interval must be nonzero"
  | .exponentTooLarge => "EID rotation exponent above 15"
  | .levelsNotAscending => "radio TX levels must ascend"
  | .configUrlNotEncodable => "config URL not encodable"
  | .slotUrlNotEncodable => "slot URL not encodable"
  | .board reason => reason

inductive RadioFault where
  | payloadTooLong
  | stack (code : Int)
  deriving DecidableEq, Repr

def RadioFault.message : RadioFault → String
  | .payloadTooLong => "payload too long"
  | .stack code => "BLE stack error " ++ toString code

inductive StoreFault where
  | corrupted
  | full
  | io
  deriving DecidableEq, Repr

def StoreFault.message : StoreFault → String
  | .corrupted => "params corrupted"
  | .full => "storage full"
  | .io => "I/O error"

inductive Fault where
  /-- A value has the wrong size, or does not fit its budget. -/
  | invalidLength
  | invalidOffset
  | notPermitted
  | authenticationFailed
  /-- No slot has a usable advertising interval. -/
  | invalidInterval
  | invalidSlotIndex
  | frame (fault : FrameFault)
  | crypto (fault : CryptoFault)
  | config (fault : ConfigFault)
  | radio (fault : RadioFault)
  deriving DecidableEq, Repr

def Fault.message : Fault → String
  | .invalidLength => "invalid attribute value length"
  | .invalidOffset => "invalid offset"
  | .notPermitted => "operation not permitted"
  | .authenticationFailed => "authentication failed"
  | .invalidInterval => "invalid advertising interval"
  | .invalidSlotIndex => "invalid slot index"
  | .frame fault => "frame: " ++ fault.message
  | .crypto fault => "crypto: " ++ fault.message
  | .config fault => "config: " ++ fault.message
  | .radio fault => "radio: " ++ fault.message

def Bytes.within (capacity : Nat) (bytes : Bytes) : Except Fault Bytes :=
  if bytes.length ≤ capacity then .ok bytes else .error .invalidLength

/-- The ATT error code that answers a refused read or write. -/
def Fault.attStatus (onWrite : Bool) : Fault → UInt8
  | .notPermitted => if onWrite then 0x03 else 0x02
  | .invalidOffset => 0x07
  | .authenticationFailed => 0x08
  | .invalidLength => 0x0D
  | .config _ | .radio _ => 0x0E
  | .invalidInterval | .invalidSlotIndex | .frame _ | .crypto _ => 0x13

end Beacon
