import Beacon.Scheduler

/-!
# Playlists

The plainest source of adverts: each slot has a fixed advert and a fixed
interval.  A playlist remembers what the scheduler has asked of it.
-/

namespace Beacon

inductive PlaylistRequest where
  | prepare (slot now : Nat)
  | transmitted (slot : Nat)
  deriving DecidableEq, Repr

def PlaylistRequest.render : PlaylistRequest → String
  | .prepare slot now => s!"prepare {slot} {now}"
  | .transmitted slot => s!"transmitted {slot}"

structure Playlist where
  /-- Milliseconds between adverts of a slot; zero for a slot that is left out. -/
  intervals : PerSlot UInt16
  adverts : PerSlot (Option PreparedAdvert)
  /-- All requests, latest first. -/
  requests : List PlaylistRequest

namespace Playlist

def interval? (list : Playlist) (slot : Nat) : Option UInt16 :=
  list.intervals[slot]?.filter (· ≠ 0)

def prepare (slot now : Nat) : Act Playlist (Option PreparedAdvert) :=
  modifyGet fun list =>
    (list.adverts[slot]?.join, { list with requests := .prepare slot now :: list.requests })

def transmitted (slot : Nat) (list : Playlist) : Playlist :=
  { list with requests := .transmitted slot :: list.requests }

instance : AdvertProvider Playlist where
  interval? := interval?
  prepare := prepare
  transmitted := transmitted

end Playlist

end Beacon
