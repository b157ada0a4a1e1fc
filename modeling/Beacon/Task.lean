/-!
# Tasks

What a timer does when it fires.
-/

namespace Beacon

inductive Task where
  | enqueue (slot : Nat)
  | manageRadio
  | configTimeout
  | resumeBeacon
  deriving DecidableEq, Repr

def Task.name : Task → String
  | .enqueue slot => "Enqueue(" ++ toString slot ++ ")"
  | .manageRadio => "ManageRadio"
  | .configTimeout => "ConfigTimeout"
  | .resumeBeacon => "ResumeBeacon"

end Beacon
