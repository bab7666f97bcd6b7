/-
  NetBoot.Sim.World — a simulated machine: what it has, what it is scripted to do, and what has
  been done to it.

  Files, host names, keys and the behaviour of images come from scripts, and single services can
  be made to fail. A computation on it ends early, keeping the state it had, when it waits for a
  key that will never come or frees pages that it does not have.
-/

import NetBoot.Memory
import NetBoot.Sim.Event

namespace NetBoot.Sim

/-- Why a computation ended early. -/
inductive Abort where
  | noKeyLeft
  | unknownAllocation (base : Address)
  | wrongPageCount (live asked : Nat)
  deriving DecidableEq, Repr

def Abort.message : Abort → String
  | noKeyLeft => "blocking key read with an empty key script"
  | unknownAllocation base => "free_pages on unknown allocation " ++ Address.text base
  | wrongPageCount live asked =>
    s!"assertion \x60left == right\x60 failed: free_pages with wrong page count\n  left: {live}\n right: {asked}"

/-- What an image does when its entry point is called, and the status it returns. -/
structure EntryScript where
  acts : List Act
  status : Status
  deriving DecidableEq, Repr

/-- The verifier of images. -/
inductive Verifier where
  | absent
  /-- Accepts or rejects every image, and keeps their sizes. -/
  | recording (accept : Bool) (sizes : List Nat)
  /-- Answers one status. -/
  | answering (status : Status)
  deriving DecidableEq, Repr

/-- The handle that the boot client runs on. -/
def ownHandle : Handle := ⟨0x100⟩

/-- The device it was started from. -/
def bootDevice : Handle := ⟨0x200⟩

def bootDevicePath : DevicePath := ⟨#[3, 0x0b, 8, 0, 0, 0, 0, 0, 0x7f, 0xff, 4, 0]⟩

/-- The boot client's own record. -/
def ownRecord : LoadedImage where
  device := bootDevice
  path := bootDevicePath.withFile? "/netchain.efi"
  base := 0x100000
  size := 0x4000

structure World where
  -- Memory
  memory : Memory := {}
  /-- Live allocations and their pages. -/
  allocations : Table Address Nat := .empty
  allocationCount : Nat := 0
  failAllocations : Bool := false
  /-- Is there memory for a buffer of so many bytes? -/
  reserves : Nat → Bool := (· < 0x1000000000)
  -- Images
  records : Table Handle LoadedImage := .ofList [(ownHandle, ownRecord)]
  devicePaths : Table Handle DevicePath := .ofList [(bootDevice, bootDevicePath)]
  nvram : Table String Bytes := .empty
  verifier : Verifier := .absent
  loadImageError : Option Status := none
  startOutcome : Exit := .success
  /-- The answer of the unload service, which then does nothing. -/
  unloadStatus : Option Status := none
  nextHandle : UInt64 := 0x1000
  started : List Handle := []
  unloaded : List Handle := []
  /-- Handles whose record cannot be read. -/
  recordFaults : Table Handle ServiceError := .empty
  /-- The record updates that fail, counted from 1. -/
  updateFaults : Table Nat ServiceError := .empty
  updates : Nat := 0
  entries : List EntryScript := []
  /-- What an entry point without a script returns. -/
  entryStatus : Status := .success
  entryCalls : List (Address × Handle) := []
  recordsAtEntry : List LoadedImage := []
  traps : Image.Traps := {}
  -- Network
  pxeMode : Net.PxeMode := ⟨15⟩
  dhcpServer : Option Net.Ipv4 := some ⟨10, 0, 0, 1⟩
  mac : Except ServiceError Net.Mac := .ok (.ofBytes #[0x00, 0x1a, 0x2b, 0x3c, 0x4d, 0x5e])
  /-- Empty stands for none. -/
  discover : Bytes := #[]
  uuid : Option String := none
  files : List ((Net.Ipv4 × String) × Bytes) := []
  /-- How many size queries of a name are still to fail. -/
  sizeFailures : Table String Nat := .empty
  /-- Sizes that are answered in place of the true ones. -/
  sizes : Table String UInt64 := .empty
  readFaults : Table String ServiceError := .empty
  reads : List (Net.Ipv4 × String) := []
  hosts : Table String Net.Ipv4 := .empty
  /-- How many look-ups are still to answer that the stack is not ready. -/
  lookupsNotReady : Nat := 0
  lookups : List String := []
  redirects : List (String × Net.Ipv4) := []
  -- Console
  /-- The keys to come; nothing stands for a read that times out. -/
  keys : List (Option Key) := []
  clock : UInt64 := 0
  sleeps : List UInt32 := []
  keyTimeouts : List UInt32 := []
  cursor : Nat × Nat := (0, 0)
  /-- What the cursor query answers, whatever was set. -/
  fixedCursor : Option (Nat × Nat) := none
  highlight : Bool := false
  clears : Nat := 0
  -- What was observed
  events : Array Event := #[]
  logLimit : Log.Limit := none
  log : Array String := #[]

instance : Inhabited World := ⟨{}⟩

end Sim

/-- Computations on a simulated machine. -/
abbrev Sim := EStateM Sim.Abort Sim.World

namespace Sim

-- `open Sim (Sim World)` finds both names here. The first is repeated on purpose.
set_option linter.all false in
export NetBoot (Sim)

namespace World

/-- What the image on a handle has in memory, by its record. -/
def imageMemory? (w : World) (handle : Handle) : Option Bytes := do
  let record ← w.records.find? handle
  if record.base < memoryStart then none else some (w.memory.bytesAt record.base record.size.toNat)

end World

/-- Notes an event. -/
def emit (e : Event) : Sim Unit := modify fun w => { w with events := w.events.push e }

/-- A record of the log is kept if it is within the limit. -/
def keepLog (r : Log.Record) : Sim Unit :=
  modify fun w => if r.shownAt w.logLimit then { w with log := w.log.push r.line } else w

def trapsCell : Cell Sim Image.Traps where
  get := do return (← get).traps
  set t := modify fun w => { w with traps := t }

end NetBoot.Sim
