/-
  NetBoot.Uefi.Services — the services of a scripted firmware: memory, images, variables, file
  transfer and the DNS interface.

  A service that is forced to a status still does its work, unless the status is an error.
-/

import NetBoot.Text.Utf16
import NetBoot.Uefi.Pool
import NetBoot.Uefi.World

namespace NetBoot.Uefi.Services

/-! ## Memory -/

/-- Fresh pages; an address of zero comes with every failure. -/
def allocatePages (pages : Nat) : Uefi (Status × Address) := do
  let w ← get
  let forced := w.forced.allocatePages.getD .success
  match if forced.isError then none else w.memory.take? pages with
  | some (base, memory) => do
    set { w with memory }
    see (.allocatePages pages forced)
    return (forced, base)
  | none => do
    let status := if forced.isError then forced else .outOfResources
    see (.allocatePages pages status)
    return (status, 0)

def freePages (base : Address) (pages : Nat) : Uefi Status := do
  see (.freePages base pages)
  return (← get).forced.freePages.getD .success

/-- A block of the pool; zero for none. -/
def allocatePool (size : UInt64) : Uefi (Status × Address) := do
  see (.allocatePool size)
  let w ← get
  let status := w.forced.allocatePool.getD .success
  return (status, if status.isError || w.poolNull then 0 else w.poolAddress)

def freePool (buffer : Buffer) : Uefi Status := do
  see (.freePool buffer)
  return (← get).forced.freePool.getD .success

/-- The pool as one whose blocks lie in low memory. -/
def pool : Pool Uefi where
  allocate size := do
    let (status, block) ← allocatePool size
    return if status.isError || block == 0 then none else some block
  free block := do let _ ← freePool (.located block)
  readWord a := do return UInt64.ofNat (leNat ((← get).low.bytesAt a 8).toList)
  writeWord a v := modify fun w => { w with low := w.low.write a (Bytes.ofU64 v) }

/-- The pool while it may be used. -/
def openPool : Uefi (Option (Pool Uefi)) := do return if (← get).poolOpen then some pool else none

/-- The bytes at an address of low memory, as far as that goes. -/
def lowBytes (w : World) (address : Address) (len : Nat) : Bytes :=
  if address < w.low.start then #[] else w.low.bytesAt address (min len (lowMemoryEnd.toNat - address.toNat))

/-- Waits. -/
def stall (ms : UInt32) : Uefi Unit := do
  if ms ≠ 0 then
    see (.stall (ms.toNat * 1000) 1)
    modify fun w => { w with ticks := w.ticks + ms.toUInt64 }

/-- A checksum over the first bytes of a table. -/
def calculateCrc (size : Nat) : Uefi (Status × UInt32) := do
  see (.calculateCrc size)
  let w ← get
  set { w with crcs := w.crcs + 1 }
  return (w.forced.calculateCrc.getD .success, 0xc0de0001 + w.crcs)

def setWatchdogTimer : Uefi Status := do
  see .setWatchdogTimer
  return (← get).forced.setWatchdogTimer.getD .success

/-! ## Interfaces -/

/-- The outcome of looking an interface up that is there or not. -/
def lookUp (w : World) (p : Protocol) (present : Bool) (absent : Status) : Except Status Unit :=
  if w.nullProtocols.contains p then .error .notFound
  else if present then .ok () else .error absent

/-- Has this handle the interface? -/
def onHandle (w : World) (p : Protocol) (h : Handle) : Bool :=
  match p with
  | .loadedImage => w.images.contains h
  | .devicePath => w.devicePaths.contains h
  | .pxeBaseCode => h == bootDevice && w.pxe.isSome
  | .simpleNetwork => h == bootDevice && w.snp.isSome
  | .dnsServiceBinding => h == bootDevice && w.dnsBinding == .device
  | .dns => h == dnsChild && !w.lookup.noProtocol
  | .shimLock => false

/-- Is there one such interface in the system? -/
def anywhere (w : World) (p : Protocol) : Bool :=
  match p with
  | .shimLock => w.shim.isSome
  | .dnsServiceBinding => w.dnsBinding == .global
  | _ => false

def handleProtocol (p : Protocol) (h : Handle) : Uefi (Except Status Unit) := do
  let w ← get
  return lookUp w p (onHandle w p h) .unsupported

def locateProtocol (p : Protocol) : Uefi (Except Status Unit) := do
  let w ← get
  return lookUp w p (anywhere w p) .notFound

/-! ## Images -/

/-- The record of an image that the firmware has just loaded. -/
def freshImage (parent : Handle) (source : Bytes) : RawImage :=
  { parent, base := 0x400000, size := UInt64.ofNat source.size }

def loadImage (parent : Handle) (path : Option DevicePath) (source : Bytes) : Uefi (Status × Handle) := do
  see (.loadImage parent (path.bind fun p => DevicePath.readFrom? p.bytes) source)
  let w ← get
  let status := w.forced.loadImage.getD .success
  if status.isError then return (status, .null)
  else
    let handle : Handle := ⟨w.nextHandle + 1⟩
    set { w with nextHandle := w.nextHandle + 1, images := w.images.insert handle (freshImage parent source) }
    return (status, handle)

def unloadImage (handle : Handle) : Uefi Status := do
  see (.unloadImage handle)
  return (← get).forced.unloadImage.getD .success

/-! ## Variables -/

/-- A query for a variable with a buffer of some size, or without one; the size that comes back,
    and the data. -/
def getVariable (name : String) (vendor : Guid) (buffer : Option Nat) : Uefi (Status × Nat × Bytes) := do
  let key := String.ofList (Text.Ucs2.decode (Text.Ucs2.encode name.toList))
  let room := buffer.getD 0
  see (.getVariable key vendor room)
  match (← get).nvram.find? key with
  | none => return (.notFound, room, #[])
  | some v =>
    match if buffer.isSome then v.dataStatus else v.sizeStatus with
    | some status => return (status, v.data.size, #[])
    | none =>
      if room < v.data.size then return (.bufferTooSmall, v.data.size, #[])
      else
        let count := v.count.getD v.data.size
        return (.success, count, v.data.extract 0 count)

/-! ## File transfer -/

/-- Asks for the size of a file, or transfers it into a buffer of some size: the size that comes
    back, and the bytes that now stand at the front of the buffer. -/
def transfer (server : Net.Ipv4) (name : String) (buffer : Option Nat) : Uefi (Status × UInt64 × Bytes) := do
  see (.transfer server name buffer)
  let w ← get
  match w.files.lookup (server, name) with
  | none => return (.tftpError, 0, #[])
  | some data =>
    let script := (w.transfers.find? name).getD {}
    match buffer with
    | none => return (script.sizeStatus, script.size.getD (UInt64.ofNat data.size), #[])
    | some room =>
      if room < data.size then return (.bufferTooSmall, 0, #[])
      else return (script.readStatus, script.count.getD (UInt64.ofNat data.size), data)

/-! ## Names -/

/-- A child that lookups run on. Each follows the next script. -/
def createChild : Uefi Status := do
  see .createChild
  let w ← get
  let lookup := w.lookups.headD {}
  set { w with lookups := w.lookups.tail, lookup, answer := none }
  return lookup.create

def destroyChild : Uefi Status := do
  see (.destroyChild dnsChild)
  return (← get).lookup.destroy

def configure : Uefi Status := do
  see .configure
  return (← get).lookup.configure

def createEvent : Uefi Status := do
  see .createEvent
  return (← get).forced.createEvent.getD .success

def closeEvent : Uefi Unit := see .closeEvent

/-- Puts an answer into buffers. -/
def makeAnswer (script : DnsScript) (addresses : List Net.Ipv4) : Uefi DnsAnswer := do
  let list ← if script.nullList then pure none else do pure (some (← newBuffer, addresses))
  return { buffer := ← newBuffer, count := script.count.getD addresses.length, list }

/-- Starts a request for the addresses of a name. -/
def hostNameToIp (name : String) : Uefi Status := do
  see (.lookUp (String.ofList (Text.Ucs2.decode (Text.Ucs2.encode name.toList))))
  let script := (← get).lookup
  if !script.start.isError then
    match script.answer with
    | none => pure ()
    | some addresses => do
      let answer ← makeAnswer script addresses
      modify fun w => { w with answer := some answer }
  return script.start

/-- Has the request come to an end? -/
def checkEvent : Uefi Status := do
  let w ← get
  match w.lookup.polls with
  | 0 => return .success
  | n + 1 => do
    set { w with lookup := { w.lookup with polls := n } }
    return .notReady

/-- Drives the network stack. -/
def poll : Uefi Unit := modify fun w => { w with polls := w.polls + 1 }

def cancel : Uefi Unit := see .cancel

/-! ## Console -/

/-- Does something with the text output, if there is one. -/
def withOutput (x : Uefi Unit) : Uefi Unit := do
  if (← get).hasOutput then x

/-- The next poll of the keyboard. -/
def pollKey : Uefi (Option Stroke) := do
  let w ← get
  if !w.hasInput then return none
  else
    match w.keys with
    | [] => return none
    | stroke :: keys => do
      set { w with keys }
      return stroke

end NetBoot.Uefi.Services
