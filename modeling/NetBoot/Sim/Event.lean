/-
  NetBoot.Sim.Event — what a simulated machine is seen to do, in the order it does it.

  Questions that change nothing leave no event, except that a verdict on an image is kept, though it
  is not shown (`isShown`). The event of an entry call holds what the image finds at that moment:
  the record of its handle, its memory, and whether a trap stands.
-/

import NetBoot.Image.Loader

namespace NetBoot.Sim

/-- What an image does while it runs. -/
inductive Act where
  | exit (handle : Handle) (exit : Exit)
  | unload (handle : Handle)
  /-- Launches another image on a handle. -/
  | launch (handle : Handle) (image : Bytes)
  deriving DecidableEq, Repr

/-- What came of it. -/
inductive Reply where
  | exited (disposition : Image.Disposition)
  | unloaded (status : Option Status)
  | launched (result : Except Image.LoadError Exit)
  deriving Repr

inductive Event where
  | allocatePages (pages : Nat) (result : Except ServiceError Address)
  | freePages (base : Address) (pages : Nat)
  | setLoadedImage (handle : Handle) (record : LoadedImage)
  /-- The verdict on an image; there is none without a verifier. -/
  | verify (image : Bytes) (answer : Option Status)
  | loadImage (parent : Handle) (path : Option DevicePath) (source : Bytes) (result : Except Status Handle)
  | startImage (handle : Handle)
  | unloadImage (handle : Handle)
  | syncCaches (base : Address) (len : Nat)
  | callEntry (entry : Address) (handle : Handle) (record : Option LoadedImage) (memory : Option Bytes)
      (trapped : Bool)
  | act (reply : Reply)
  | fileSize (server : Net.Ipv4) (name : String) (result : Except ServiceError UInt64)
  | receiveFile (server : Net.Ipv4) (name : String) (len : Nat) (result : Except ServiceError Nat)
  | resolve (name : String) (result : Except ServiceError Net.Ipv4)
  | redirect (file : String) (server : Net.Ipv4) (result : Except ServiceError Unit)
  | print (text : String)
  | clear
  | setCursor (column row : Nat)
  | highlight (on : Bool)
  /-- The outcome is missing when the read never came back. -/
  | readKey (timeout : UInt32) (outcome : Option (Option Key))
  | sleep (ms : UInt32)
  deriving Repr

namespace Event

/-- Does it reach the world outside the machine? -/
def isShown : Event → Bool
  | verify .. => false
  | _ => true

/-- Puts an event in front, joining it to the next when both print. -/
def consJoined (e : Event) (es : List Event) : List Event :=
  match e, es with
  | .print a, .print b :: r => .print (a ++ b) :: r
  | e, es => e :: es

/-- The events with each run of prints as one. -/
def joinPrints (es : List Event) : List Event := es.foldr consJoined []

end Event

end NetBoot.Sim
