import Beacon.Bytes
import Beacon.Fault

/-!
# Compressed web addresses

A web address is broadcast as one byte for its scheme, then one byte for each
well-known domain ending and one for each other character.  At every place the
first ending of the table that fits is taken, so the endings with a slash stand
before those without.

An encoding holds at most eighteen bytes; `expand` reads any such string back.
-/

namespace Beacon

namespace Url

def capacity : Nat := 18

end Url

/-- A compressed web address, scheme byte first. -/
structure EncodedUrl where
  bytes : Bytes
  fits : bytes.length ≤ Url.capacity
  deriving DecidableEq, Repr

/-- Takes the bytes if there are any and they fit. -/
def EncodedUrl.ofBytes (bytes : Bytes) : Except Fault EncodedUrl :=
  if bytes = [] then .error .invalidLength
  else if fits : bytes.length ≤ Url.capacity then .ok ⟨bytes, fits⟩
  else .error .invalidLength

namespace Url

def schemes : List (List Char) := [
  ['h', 't', 't', 'p', ':', '/', '/', 'w', 'w', 'w', '.'],
  ['h', 't', 't', 'p', 's', ':', '/', '/', 'w', 'w', 'w', '.'],
  ['h', 't', 't', 'p', ':', '/', '/'],
  ['h', 't', 't', 'p', 's', ':', '/', '/']]

/-- The domain endings that have a code of their own, in the order of their codes. -/
def endings : List (List Char) := [
  ['.', 'c', 'o', 'm', '/'], ['.', 'o', 'r', 'g', '/'], ['.', 'e', 'd', 'u', '/'],
  ['.', 'n', 'e', 't', '/'], ['.', 'i', 'n', 'f', 'o', '/'], ['.', 'b', 'i', 'z', '/'],
  ['.', 'g', 'o', 'v', '/'],
  ['.', 'c', 'o', 'm'], ['.', 'o', 'r', 'g'], ['.', 'e', 'd', 'u'],
  ['.', 'n', 'e', 't'], ['.', 'i', 'n', 'f', 'o'], ['.', 'b', 'i', 'z'], ['.', 'g', 'o', 'v']]

/-- The first word of the table that starts the text: its code and the text after it. -/
def startsWith? (table : List (List Char)) (text : List Char) : Option (Nat × List Char) :=
  table.zipIdx.findSome? fun (word, code) => (word.isPrefixOf? text).map ((code, ·))

/-- Printable ASCII other than the space stands for itself. -/
def isLiteral (n : Nat) : Bool :=
  0x20 < n && n < 0x7F

/-- The first byte of a character on the wire. -/
def leadByte (c : Char) : UInt8 :=
  (String.utf8EncodeChar c).headD 0

/-- Compresses the text after the scheme into at most `room` bytes. -/
def compressBody : (room : Nat) → List Char → Except Fault Bytes
  | _, [] => .ok []
  | room, c :: rest =>
    let piece : Except Fault (UInt8 × List Char) :=
      match startsWith? endings (c :: rest) with
      | some (code, tail) => .ok (UInt8.ofNat code, tail)
      | none =>
        if isLiteral c.toNat then .ok (UInt8.ofNat c.toNat, rest)
        else .error (.frame (.invalidUrlByte (leadByte c)))
    match piece, room with
    | .error fault, _ => .error fault
    | .ok _, 0 => .error .invalidLength
    | .ok (byte, tail), room + 1 => (byte :: ·) <$> compressBody room tail

def compressBytes (url : String) : Except Fault Bytes :=
  match startsWith? schemes url.toList with
  | none => .error (.frame .unsupportedScheme)
  | some (scheme, rest) => (UInt8.ofNat scheme :: ·) <$> compressBody (capacity - 1) rest

/-- Compresses an address.  A reserved character is reported before a lack of room at its place. -/
def compress (url : String) : Except Fault EncodedUrl :=
  (compressBytes url).bind EncodedUrl.ofBytes

def expandByte (byte : UInt8) : Except Fault (List Char) :=
  match endings[byte.toNat]? with
  | some ending => .ok ending
  | none =>
    if isLiteral byte.toNat then .ok [Char.ofNat byte.toNat]
    else .error (.frame (.invalidUrlByte byte))

def expandBody : Bytes → Except Fault (List Char)
  | [] => .ok []
  | byte :: rest =>
    match expandByte byte with
    | .error fault => .error fault
    | .ok text => (text ++ ·) <$> expandBody rest

def expand : Bytes → Except Fault String
  | [] => .error (.frame .truncated)
  | scheme :: body =>
    match schemes[scheme.toNat]? with
    | none => .error (.frame (.unknownUrlScheme scheme))
    | some start => (fun text => String.ofList (start ++ text)) <$> expandBody body

end Url

end Beacon
