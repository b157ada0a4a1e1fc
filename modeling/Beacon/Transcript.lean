import Beacon.Act

/-!
# Transcripts

All that actions put out, in order, makes a transcript.  Its parts are the lines
of the log, the events, and the calls to the radio and to the store.  A call is
written as its name and what it hands over, with bytes in hexadecimal.
-/

namespace Beacon

def Bytes.hex (bytes : Bytes) : String :=
  String.ofList (bytes.flatMap fun b =>
    [(hexDigit (b.toNat / 16)).toLower, (hexDigit (b.toNat % 16)).toLower])

def RadioCall.render : RadioCall → String
  | .start payload => "start " ++ payload.hex
  | .stop => "stop"
  | .scanResponse payload => "scan " ++ payload.hex
  | .txPower dbm => s!"tx {dbm.toInt}"
  | .interval ms => s!"interval {ms.toNat}"
  | .connectable on => if on then "connectable true" else "connectable false"
  | .address octets => "address " ++ Bytes.hex octets.toList

def Clock.render (clock : Clock) : String :=
  s!"{clock.prior.toNat} {clock.elapsed.toNat}"

def StoreCall.render : StoreCall → String
  | .load => "load"
  | .save params => "save " ++ params.clock.render
  | .saveClock clock => "save_time " ++ clock.render

abbrev Transcript := List Output

namespace Transcript

def lines (transcript : Transcript) : List Line :=
  transcript.filterMap Output.line?

def events (transcript : Transcript) : List Event :=
  transcript.filterMap fun
    | .event event => some event
    | _ => none

def radioCalls (transcript : Transcript) : List RadioCall :=
  transcript.filterMap fun
    | .radio call _ => some call
    | _ => none

def storeCalls (transcript : Transcript) : List StoreCall :=
  transcript.filterMap fun
    | .store call _ => some call
    | _ => none

@[simp] theorem events_append (a b : Transcript) : events (a ++ b) = events a ++ events b :=
  List.filterMap_append

@[simp] theorem radioCalls_append (a b : Transcript) :
    radioCalls (a ++ b) = radioCalls a ++ radioCalls b :=
  List.filterMap_append

end Transcript

end Beacon
