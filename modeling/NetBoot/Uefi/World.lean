/-
  NetBoot.Uefi.World — a UEFI firmware: its tables and interfaces, the scripts its services follow,
  and what this program has done to it.

  A computation on it may end early and leave the state as it is. That is how control leaves the
  stack of running images: an exit that is resumed goes back to the entry call it belongs to, and
  one that the firmware itself carries out goes back to whoever had it start the image.
-/

import NetBoot.Memory
import NetBoot.Image.Traps
import NetBoot.Net.PxePacket
import NetBoot.Smbios
import NetBoot.Uefi.Protocol
import NetBoot.Uefi.Event

namespace NetBoot

namespace Uefi

/-- The handle that the boot client runs on. -/
def ownHandle : Handle := ⟨0x100⟩

/-- The device that the network interfaces belong to. -/
def bootDevice : Handle := ⟨0x200⟩

/-- The child that a DNS lookup runs on. -/
def dnsChild : Handle := ⟨0x900⟩

/-! ## Images -/

/-- A call of the exit service: the image and its status, and exit data of some bytes. -/
structure ExitCall where
  handle : Handle
  status : Status
  data : Option (List UInt16)
  size : Nat
  deriving DecidableEq, Repr

/-- What a running image does through the services of the firmware. -/
inductive Act where
  /-- Exits. `inside` is what the firmware does before it answers, if the call gets to it. -/
  | exit (call : ExitCall) (inside : List Act)
  | unload (handle : Handle)
  /-- Launches an image by its entry point, under a trap. -/
  | launch (handle : Handle) (acts : List Act) (status : Status)
  /-- Has the firmware start an image. -/
  | start (handle : Handle) (acts : List Act)
  deriving Repr

/-- What an image does when its entry point is called, and the status it returns. -/
structure Script where
  acts : List Act := []
  status : Status := .success
  deriving Repr

instance : Inhabited Script := ⟨{}⟩

/-- Where a pointer in a structure of the firmware leads. -/
inductive Pointer (α : Type) where
  | null
  /-- To data of the firmware. -/
  | firmware (data : α)
  /-- To the copy with this number, which the boot client has made. -/
  | copy (number : Nat)
  deriving DecidableEq, Repr

/-- The record of a loaded image as the firmware keeps it. -/
structure RawImage where
  parent : Handle := .null
  device : Handle := .null
  path : Pointer Bytes := .null
  optionsSize : UInt32 := 0
  options : Pointer (List UInt16) := .null
  base : Address := 0
  size : UInt64 := 0
  deriving DecidableEq, Repr

/-- What the boot client's pointers in one record lead to. -/
structure RecordCopy where
  number : Nat
  path : Bytes
  options : List UInt16
  deriving DecidableEq, Repr

/-! ## Tables and hooks -/

structure TableHeader where
  signature : UInt64
  crc : UInt32 := 0
  reserved : UInt32 := 0
  deriving DecidableEq, Repr

namespace TableHeader

/-- `IBI SYST` -/
def systemTable : UInt64 := 0x5453595320494249

/-- `BOOTSERV` -/
def bootServices : UInt64 := 0x56524553544F4F42

def isValid (h : TableHeader) (signature : UInt64) : Bool := h.signature == signature && h.reserved == 0

end TableHeader

/-- What stands in a slot of the boot services table. -/
inductive Service where
  | firmware
  | hook
  deriving DecidableEq, Repr

structure BootServices where
  header : TableHeader := { signature := TableHeader.bootServices }
  exit : Service := .firmware
  unload : Service := .firmware
  deriving DecidableEq, Repr

instance : Inhabited BootServices := ⟨{}⟩

/-- The services that the hooks replaced, and where. -/
structure SavedServices where
  table : Address
  exit : Service
  unload : Service
  deriving DecidableEq, Repr

/-- Where an entry call can be resumed. -/
structure ResumePoint where
  number : Nat
  deriving DecidableEq, Repr

structure Hooks where
  /-- Is the state in use? -/
  locked : Bool := false
  saved : Option SavedServices := none
  /-- Do the hooks know the exit traps? -/
  routed : Bool := false
  /-- Where the images that run can be resumed. -/
  points : Table Handle ResumePoint := .empty
  deriving Repr

/-- The calls that have not come back: entry calls, newest first, and images started by the
    firmware. -/
structure Pending where
  entries : List ResumePoint := []
  starts : List Handle := []
  deriving DecidableEq, Repr

/-- Why a computation ended early. -/
inductive Halt where
  /-- Control has gone back to an entry call. -/
  | resumed (point : ResumePoint) (status : Status)
  /-- The firmware has ended an image that it started. -/
  | ended (handle : Handle) (status : Status)
  /-- The state of the hooks was in use, and whoever waits for it waits for ever. -/
  | lockHeld
  /-- The hooks forward to themselves. -/
  | endlessCall
  /-- A read through a pointer to a copy that is gone. -/
  | dangling (number : Nat)
  | noKeyLeft
  deriving DecidableEq, Repr

def Halt.message : Halt → String
  | resumed point _ => s!"resume point {point.number} is not pending"
  | ended handle _ => s!"image {handle.describe} is not pending"
  | lockHeld => "the hooks are in use"
  | endlessCall => "the hooks forward to themselves"
  | dangling number => s!"copy {number} is gone"
  | noKeyLeft => "no keystroke is to come"

/-! ## Scripts of single services -/

/-- How a transfer of one file goes. -/
structure TransferScript where
  size : Option UInt64 := none
  sizeStatus : Status := .success
  /-- The number of bytes that a read reports. -/
  count : Option UInt64 := none
  readStatus : Status := .success
  deriving DecidableEq, Repr

structure Variable where
  data : Bytes
  /-- The answer to a query for the size. -/
  sizeStatus : Option Status := none
  /-- The answer to a query for the data. -/
  dataStatus : Option Status := none
  /-- The number of bytes that a query for the data gives. -/
  count : Option Nat := none
  deriving DecidableEq, Repr

structure DnsScript where
  create : Status := .success
  configure : Status := .success
  start : Status := .success
  /-- The outcome of the request, once it has one. -/
  token : Status := .success
  destroy : Status := .success
  /-- How many checks find the request still running. -/
  polls : Nat := 0
  answer : Option (List Net.Ipv4) := none
  /-- The number of addresses that is claimed. -/
  count : Option Nat := none
  /-- Does the answer come without its list? -/
  nullList : Bool := false
  /-- Does the child lack the interface? -/
  noProtocol : Bool := false
  deriving DecidableEq, Repr

instance : Inhabited DnsScript := ⟨{}⟩

/-- An answer in buffers of the firmware. -/
structure DnsAnswer where
  buffer : Nat
  count : Nat
  list : Option (Nat × List Net.Ipv4)
  deriving DecidableEq, Repr

inductive DnsBinding where
  | device
  | global
  | none
  deriving DecidableEq, Repr

/-- What a poll of the keyboard finds. -/
structure Stroke where
  scan : UInt16
  unit : UInt16
  status : Status
  deriving DecidableEq, Repr

/-- How an image ends that the firmware starts. -/
structure StartOutcome where
  status : Status := .success
  data : Option (List UInt16) := none
  size : Nat := 0
  deriving DecidableEq, Repr

/-- Statuses that services answer whatever they are asked. -/
structure Forced where
  allocatePages : Option Status := none
  freePages : Option Status := none
  allocatePool : Option Status := none
  freePool : Option Status := none
  createEvent : Option Status := none
  loadImage : Option Status := none
  exit : Option Status := none
  unloadImage : Option Status := none
  setWatchdogTimer : Option Status := none
  calculateCrc : Option Status := none
  deriving DecidableEq, Repr

/-! ## The firmware -/

/-- The memory in which the firmware keeps its tables and its pool. -/
def lowMemory : Memory := { start := 0x10000000, next := 0x10000000 }

/-- Where that memory ends. -/
def lowMemoryEnd : Address := 0x10100000

/-- Where the boot services table lies. -/
def bootServicesAddress : Address := 0x10000

structure World where
  -- Tables
  /-- Missing for a null pointer. -/
  systemTable : Option TableHeader := some { signature := TableHeader.systemTable }
  /-- Zero for a null pointer. -/
  bootServices : Address := bootServicesAddress
  services : Table Address BootServices := .ofList [(bootServicesAddress, {})]
  configTables : List (ConfigTable × Bytes) := []
  nullProtocols : List Protocol := []
  forced : Forced := {}
  crcs : UInt32 := 0
  -- Memory
  memory : Memory := {}
  low : Memory := lowMemory
  poolAddress : Address := 0x10080000
  /-- Does the pool answer with a null pointer? -/
  poolNull : Bool := false
  /-- May memory be taken from the pool? -/
  poolOpen : Bool := false
  /-- How many buffers the firmware has made. -/
  buffers : Nat := 0
  /-- Is there memory for a buffer of so many bytes? -/
  reserves : Nat → Bool := (· < 0x1000000000)
  -- Images
  images : Table Handle RawImage := .empty
  devicePaths : Table Handle Bytes := .empty
  copies : Table Handle RecordCopy := .empty
  nextCopy : Nat := 0
  nextHandle : UInt64 := 0x1000
  startOutcome : StartOutcome := {}
  /-- What the next images do that are entered. -/
  entries : List Script := []
  /-- What the next images do that the firmware starts. -/
  starts : List (List Act) := []
  traps : Image.Traps := {}
  hooks : Hooks := {}
  pending : Pending := {}
  nextPoint : Nat := 0
  -- Variables and verifier
  hasRuntime : Bool := true
  nvram : Table String Variable := .empty
  /-- What the image verifier answers, if there is one. -/
  shim : Option Status := none
  -- Network
  /-- The network boot stack, and the state it shows. -/
  pxe : Option (Option Net.BaseCodeMode) := none
  /-- The network interface, and the address it shows. -/
  snp : Option (Option Net.Mac) := none
  files : List ((Net.Ipv4 × String) × Bytes) := []
  transfers : Table String TransferScript := .empty
  dnsBinding : DnsBinding := .none
  /-- One script for each lookup. -/
  lookups : List DnsScript := []
  /-- The lookup that runs. -/
  lookup : DnsScript := {}
  answer : Option DnsAnswer := none
  /-- How often the network stack has been driven by hand. -/
  polls : Nat := 0
  -- Console
  hasInput : Bool := true
  hasOutput : Bool := true
  /-- Column and row of the cursor. -/
  cursor : Option (Int × Int) := none
  keys : List (Option Stroke) := []
  ticks : UInt64 := 0
  -- What was observed
  events : Array Event := #[]
  /-- The calls among them that came while the state of the hooks was in use. -/
  lockedCalls : Array Event := #[]
  logLimit : Log.Limit := none
  log : Array String := #[]

instance : Inhabited World := ⟨{}⟩

end Uefi

/-- Computations on a UEFI firmware. -/
abbrev Uefi := EStateM Uefi.Halt Uefi.World

namespace Uefi

/-- The world in which a call has been noted. -/
def World.noting (e : Event) (w : World) : World :=
  { w with
    events := w.events.push e
    lockedCalls := if w.hooks.locked then w.lockedCalls.push e else w.lockedCalls }

/-- Notes a call. -/
def see (e : Event) : Uefi Unit := modify (World.noting e)

/-- A record of the log is kept if it is within the limit. -/
def logIn (r : Log.Record) : Uefi Unit :=
  modify fun w => if r.shownAt w.logLimit then { w with log := w.log.push r.line } else w

def journal : Journal Uefi := ⟨logIn⟩

def trapsIn : Cell Uefi Image.Traps where
  get := do return (← get).traps
  set t := modify fun w => { w with traps := t }

/-- The number of a buffer that the firmware makes. -/
def newBuffer : Uefi Nat := do
  let w ← get
  set { w with buffers := w.buffers + 1 }
  return w.buffers

end Uefi

end NetBoot
