/-
  NetBoot.Platform — what the boot client needs from the machine it runs on.

  Each capability is a record of operations in some monad `m`, so one boot client runs on every
  machine that offers them: a simulated one, or the services of a firmware. `Firmware` has pages,
  memory, images and variables; `Network` the network stack; `Console` text, keys and time;
  `Journal` takes diagnostics. An operation that can fail answers with its error as a value.
-/

import NetBoot.Status
import NetBoot.Guid
import NetBoot.Address
import NetBoot.Key
import NetBoot.Log
import NetBoot.DevicePath
import NetBoot.Net.Address

namespace NetBoot

/-- What the firmware keeps about a loaded image. -/
structure LoadedImage where
  parent : Handle := .null
  device : Handle := .null
  path : Option DevicePath := none
  options : List UInt16 := []
  base : Address := 0
  size : UInt64 := 0
  deriving DecidableEq, Repr

instance : Inhabited LoadedImage := ⟨{}⟩

/-- How an image ended: the status it gave, and the text that may come with it. -/
structure Exit where
  status : Status
  data : Option String
  deriving DecidableEq, Repr

namespace Exit

def success : Exit := ⟨.success, none⟩

def isSuccess (e : Exit) : Bool := e.status.isSuccess

end Exit

/-- A place of the machine that holds one value. -/
structure Cell (m : Type → Type) (σ : Type) where
  get : m σ
  set : σ → m Unit

structure Journal (m : Type → Type) where
  log : Log.Record → m Unit

namespace Journal

variable {m : Type → Type}

def error (j : Journal m) (target message : String) : m Unit := j.log ⟨.error, target, message⟩
def warn (j : Journal m) (target message : String) : m Unit := j.log ⟨.warn, target, message⟩
def info (j : Journal m) (target message : String) : m Unit := j.log ⟨.info, target, message⟩
def debug (j : Journal m) (target message : String) : m Unit := j.log ⟨.debug, target, message⟩
def trace (j : Journal m) (target message : String) : m Unit := j.log ⟨.trace, target, message⟩

def logAll [Monad m] (j : Journal m) : List Log.Record → m Unit
  | [] => pure ()
  | r :: rs => do
    j.log r
    j.logAll rs

end Journal

structure Firmware (m : Type → Type) extends Journal m where
  /-- Fresh pages; the address of the first. -/
  allocatePages : Nat → m (Except ServiceError Address)
  freePages : Address → Nat → m Unit
  /-- The bytes of memory from an address on. -/
  readMemory : Address → Nat → m Bytes
  writeMemory : Address → Bytes → m Unit
  /-- The handle this program itself runs on. -/
  imageHandle : m Handle
  loadedImage : Handle → m (Except ServiceError LoadedImage)
  setLoadedImage : Handle → LoadedImage → m (Except ServiceError Unit)
  readVariable : String → Guid → m (Option Bytes)
  /-- The verdict of the image verifier; `none` when there is none. -/
  verify : Bytes → m (Option Status)
  devicePath : Handle → m (Option DevicePath)
  loadImage : Handle → Option DevicePath → Bytes → m (Except Status Handle)
  startImage : Handle → m Exit
  unloadImage : Handle → m Status
  /-- Makes freshly written code visible to instruction fetch. -/
  syncCaches : Address → Nat → m Unit
  /-- Runs the code at an entry point on a handle. -/
  callEntry : Address → Handle → m Status

structure Network (m : Type → Type) extends Journal m where
  pxeMode : m Net.PxeMode
  dhcpServer : m (Except ServiceError Net.Ipv4)
  clientMac : m (Except ServiceError Net.Mac)
  /-- The DHCP discover packet this client sent. -/
  discoverPacket : m (Except ServiceError Bytes)
  systemUuid : m (Option String)
  /-- Is there memory for a buffer of so many bytes? -/
  reserve : Nat → m Bool
  fileSize : Net.Ipv4 → String → m (Except ServiceError UInt64)
  /-- Reads a file into a zeroed buffer of the given size: how much the transfer says it read, and
      the bytes that now stand at the front of the buffer. -/
  receiveFile : Net.Ipv4 → String → Nat → m (Except ServiceError Nat × Bytes)
  resolveHost : String → m (Except ServiceError Net.Ipv4)
  /-- Makes the cached DHCP answer name another boot file and server. -/
  redirectBoot : String → Net.Ipv4 → m (Except ServiceError Unit)

structure Console (m : Type → Type) where
  print : String → m Unit
  clear : m Unit
  cursor : m (Nat × Nat)
  setCursor : Nat → Nat → m Unit
  setHighlight : Bool → m Unit
  /-- Waits for a key for so many milliseconds, or without end for zero. -/
  readKey : UInt32 → m (Option Key)
  sleep : UInt32 → m Unit
  ticks : m UInt64
  /-- A bound on the keystrokes that are still to come; a loop that waits for one of them reads
      no more often than that allows. -/
  keysAhead : m Nat

namespace Console

variable {m : Type → Type} [Monad m]

/-- Prints the pieces of a message one by one. Firmware text ends at a zero unit, so a zero inside
    one piece hides the rest of that piece and nothing behind it. -/
def say (c : Console m) : List String → m Unit
  | [] => pure ()
  | piece :: r => do
    c.print piece
    c.say r

end Console

/-- A whole machine. -/
structure Host (m : Type → Type) extends Firmware m, Network m, Console m where
  /-- How much the logger shows. -/
  setLogLimit : Log.Limit → m Unit

end NetBoot
