/-
  NetBoot.Uefi.Event — the calls that a firmware sees, in the order they reach it.

  Look-ups and polls that change nothing leave no event.
-/

import NetBoot.DevicePath
import NetBoot.Guid
import NetBoot.Address
import NetBoot.Status
import NetBoot.Net.Address

namespace NetBoot.Uefi

/-- A buffer that is given back: one that the firmware made, by its number, or one at an
    address. -/
inductive Buffer where
  | numbered (n : Nat)
  | located (address : Address)
  deriving DecidableEq, Repr

inductive Event where
  | allocatePages (pages : Nat) (status : Status)
  | freePages (base : Address) (pages : Nat)
  | allocatePool (size : UInt64)
  | freePool (buffer : Buffer)
  | createEvent
  | closeEvent
  | loadImage (parent : Handle) (path : Option DevicePath) (source : Bytes)
  | startImage (handle : Handle)
  | exit (handle : Handle) (status : Status) (size : Nat) (hasData : Bool)
  | unloadImage (handle : Handle)
  /-- So many waits one behind the other, and their sum in microseconds. -/
  | stall (microseconds : Nat) (count : Nat)
  | setWatchdogTimer
  | calculateCrc (size : Nat)
  | getVariable (name : String) (vendor : Guid) (size : Nat)
  | setColors (colors : Nat)
  | clearScreen
  | setCursor (column row : Nat)
  | output (text : String)
  /-- A query for a file's size, or a transfer into a buffer of some size. -/
  | transfer (server : Net.Ipv4) (name : String) (buffer : Option Nat)
  | verify (image : Bytes)
  | createChild
  | destroyChild (child : Handle)
  | configure
  | lookUp (name : String)
  | cancel
  | enter (handle : Handle)
  /-- A call that came back to an image, and the answer. -/
  | exitReturned (status : Status)
  | unloadReturned (status : Status)
  deriving Repr

namespace Event

/-- Puts an event in front, joining it to the next when both write text or both wait. -/
def consJoined (e : Event) (es : List Event) : List Event :=
  match e, es with
  | .output a, .output b :: r => .output (a ++ b) :: r
  | .stall a m, .stall b n :: r => .stall (a + b) (m + n) :: r
  | e, es => e :: es

/-- The events with runs of text, and of waits, as one. -/
def joined (es : List Event) : List Event := es.foldr consJoined []

end Event

end NetBoot.Uefi
