/-
  NetBoot.Uefi.Platform — the boot client's platform on a UEFI firmware.

  The interfaces of the device that the boot client was loaded from are looked up once, and a
  missing one is no failure: what needs it answers that it is not supported. There is no clock, so
  time is what has been spent waiting. The keyboard is polled every ten milliseconds.
-/

import NetBoot.Uefi.Dns
import NetBoot.Uefi.Hooks
import NetBoot.Uefi.Records

namespace NetBoot.Uefi

/-- What was found when the platform was set up. -/
structure Platform where
  /-- The device that the boot client was loaded from. -/
  device : Handle
  hasPxe : Bool
  hasSnp : Bool
  hasVerifier : Bool
  deriving DecidableEq, Repr

private def platformTarget : String := "netchain_uefi::platform"

private def firmwareTarget : String := "netchain_uefi::platform::firmware"

namespace Platform

/-! ## Setting up -/

/-- Does a look-up find the interface? -/
def found (r : Except Status Unit) : Bool := r matches .ok ()

/-- The tables are as they should be, or this is the status to fail with. -/
def checkTables (w : World) : Except Status Unit :=
  match w.systemTable with
  | none => .error .invalidParameter
  | some header =>
    if !header.isValid TableHeader.systemTable then .error .invalidParameter
    else match w.services.find? w.bootServices with
      | none => .error .unsupported
      | some services =>
        if services.header.isValid TableHeader.bootServices then .ok () else .error .unsupported

/-- The device that the boot client was loaded from; none if its own record is missing. -/
def ownDevice : Uefi Handle := do
  match ← Services.handleProtocol .loadedImage ownHandle with
  | .error status => do
    logIn ⟨.warn, platformTarget, s!"no loaded-image protocol on own handle: {status.text}"⟩
    return .null
  | .ok () => return (((← get).images.find? ownHandle).getD {}).device

/-- Sets the platform up. -/
def attach : Uefi (Except Status Platform) := do
  match checkTables (← get) with
  | .error status => return .error status
  | .ok () => do
    let device ← ownDevice
    let pxe := found (← Services.handleProtocol .pxeBaseCode device)
    let snp := found (← Services.handleProtocol .simpleNetwork device)
    let verifier := found (← Services.locateProtocol .shimLock)
    let p : Platform := ⟨device, !device.isNull && pxe, !device.isNull && snp, verifier⟩
    logIn ⟨.debug, platformTarget, s!"platform: pxe={p.hasPxe} snp={p.hasSnp} shim={p.hasVerifier}"⟩
    return .ok p

/-- Keeps the firmware from resetting the machine while the user takes time. -/
def disableWatchdog : Uefi Unit := do
  let status ← Services.setWatchdogTimer
  if status.isError then logIn ⟨.debug, platformTarget, s!"cannot disable watchdog: {status.text}"⟩

/-! ## Memory and images -/

def allocatePages (pages : Nat) : Uefi (Except ServiceError Address) := do
  let (status, base) ← Services.allocatePages pages
  return (ServiceError.check status).map fun _ => base

def freePages (base : Address) (pages : Nat) : Uefi Unit := do
  let status ← Services.freePages base pages
  if status.isError then
    logIn ⟨.warn, firmwareTarget, s!"FreePages({base.text}, {pages}) failed: {status.text}"⟩

/-- The data of a variable whose size is known. -/
def variableData (name : String) (vendor : Guid) (size : Nat) : Uefi (Option Bytes) := do
  let (status, count, data) ← Services.getVariable name vendor (some size)
  if status.isError then
    logIn ⟨.debug, firmwareTarget, s!"GetVariable failed: {status.text}"⟩
    return none
  else return some ((Bytes.resize data size).extract 0 count)

/-- A variable: its size is asked for first. -/
def readVariable (name : String) (vendor : Guid) : Uefi (Option Bytes) := do
  if !(← get).hasRuntime then return none
  else
    let (status, size, _) ← Services.getVariable name vendor none
    if status.isSuccess then return some #[]
    else if status = .bufferTooSmall then variableData name vendor size
    else
      if status ≠ .notFound then
        logIn ⟨.debug, firmwareTarget, s!"GetVariable size query failed: {status.text}"⟩
      return none

/-- The verdict of the image verifier, which takes sizes of 32 bits. -/
def verify (p : Platform) (image : Bytes) : Uefi (Option Status) := do
  if !p.hasVerifier then return none
  else if UInt32.size ≤ image.size then return some .bufferTooSmall
  else
    see (.verify image)
    return some ((← get).shim.getD .success)

def devicePath (handle : Handle) : Uefi (Option DevicePath) := do
  if found (← Services.handleProtocol .devicePath handle) then
    return ((← get).devicePaths.find? handle).bind DevicePath.readFrom?
  else return none

def loadImage (parent : Handle) (path : Option DevicePath) (source : Bytes) : Uefi (Except Status Handle) := do
  let (status, handle) ← Services.loadImage parent path source
  return status.check.map fun _ => handle

/-- Starts an image through the firmware and takes its exit data. -/
def startImage (handle : Handle) : Uefi Exit := do
  let acts := (← get).starts.headD []
  modify fun w => { w with starts := w.starts.tail }
  match ← started handle (performAll acts) with
  | some status => return ⟨status, none⟩
  | none => do
    let outcome := (← get).startOutcome
    if outcome.data.isSome then Dns.freeBuffer (← newBuffer)
    return ⟨outcome.status, (Text.Ucs2.decodeBuffer outcome.data outcome.size).map String.ofList⟩

/-- Calls the entry point of an image, which follows the next script. -/
def callEntry (_entry : Address) (handle : Handle) : Uefi Status := do
  let script := (← get).entries.headD {}
  modify fun w => { w with entries := w.entries.tail }
  enterScript handle script

/-! ## Network -/

/-- The state that the network boot stack shows. -/
def mode (p : Platform) : Uefi (Except ServiceError Net.BaseCodeMode) := do
  if !p.hasPxe then return .error .notSupported
  else
    match (← get).pxe with
    | some (some mode) => return .ok mode
    | _ => return .error .notReady

def dhcpServer (p : Platform) : Uefi (Except ServiceError Net.Ipv4) := do
  match ← p.mode with
  | .error e => return .error e
  | .ok mode =>
    match mode.bootServer? with
    | some server => return .ok server
    | none => return .error .notFound

def clientMac (p : Platform) : Uefi (Except ServiceError Net.Mac) := do
  if !p.hasSnp then return .error .notSupported
  else
    match (← get).snp with
    | some (some mac) => return .ok mac
    | _ => return .error .notReady

def discoverPacket (p : Platform) : Uefi (Except ServiceError Bytes) := do
  match ← p.mode with
  | .error e => return .error e
  | .ok mode => return if mode.discoverValid = 0 then .error .notFound else .ok mode.discover.raw

/-- The structure table that the firmware's tables point to. A 64-bit entry point is preferred,
    even one that is damaged. -/
def smbiosTable? (w : World) : Option Smbios.TableRange :=
  match w.configTables.lookup .smbios3, w.configTables.lookup .smbios with
  | some entry, _ => Smbios.entryPoint3? (entry.extract 0 Smbios.entryPoint3Size)
  | none, some entry => Smbios.entryPoint? (entry.extract 0 Smbios.entryPointSize)
  | none, none => none

def systemUuid : Uefi (Option String) := do
  let w ← get
  match smbiosTable? w with
  | none => return none
  | some table =>
    if table.isEmpty then return none
    else
      let bytes := Services.lowBytes w table.address table.length
      return (Smbios.systemUuid? bytes.toList).map Smbios.uuidText

/-- Can the name be given to the file transfer? Zero bytes end names there, and only ASCII is
    understood. -/
def isTransferName (name : String) : Bool := name.toList.all fun c => c.toNat < 128 && c.toNat != 0

/-- A transfer, or a query for a size: the size, and the bytes at the front of the buffer. -/
def transfer (p : Platform) (server : Net.Ipv4) (name : String) (buffer : Option Nat) :
    Uefi (Except ServiceError UInt64 × Bytes) := do
  if !p.hasPxe then return (.error .notSupported, #[])
  else if !isTransferName name then return (.error .invalidParameter, #[])
  else
    let (status, size, data) ← Services.transfer server name buffer
    return ((ServiceError.check status).map fun _ => size, data)

def fileSize (p : Platform) (server : Net.Ipv4) (name : String) : Uefi (Except ServiceError UInt64) := do
  return (← p.transfer server name none).1

def receiveFile (p : Platform) (server : Net.Ipv4) (name : String) (len : Nat) :
    Uefi (Except ServiceError Nat × Bytes) := do
  let (size, data) ← p.transfer server name (some len)
  return (size.map fun n => min n.toNat len, data)

def redirectBoot (p : Platform) (file : String) (server : Net.Ipv4) : Uefi (Except ServiceError Unit) := do
  match ← p.mode with
  | .error e => return .error e
  | .ok mode => do
    let (result, mode') := mode.redirect file server
    modify fun w => { w with pxe := some (some mode') }
    journal.logAll (mode.redirectNotes file server)
    return result

/-! ## Console -/

/-- Text attributes: light gray on black. -/
def normalColors : Nat := 0x07

/-- Text attributes: black on light gray. -/
def highlightColors : Nat := 0x70

/-- Writes text, up to its first zero character. -/
def print (text : String) : Uefi Unit := Services.withOutput do
  see (.output (String.ofList (Text.Ucs2.decode (Text.Ucs2.encodeConsole text.toList))))

def cursor : Uefi (Nat × Nat) := do
  let w ← get
  match w.hasOutput, w.cursor with
  | true, some (column, row) => return (column.toNat, row.toNat)
  | _, _ => return (0, 0)

/-- Milliseconds between two polls of the keyboard. -/
def keyPollInterval : UInt32 := 10

/-- A key, if a poll finds one. -/
def pollKey : Uefi (Option Key) := do
  match ← Services.pollKey with
  | some stroke => return if stroke.status = .success then some (.ofStroke stroke.scan stroke.unit) else none
  | none => return none

/-- Polls until there is a key, and `n` times more at most. -/
def pollFor (n : Nat) : Uefi (Option Key) := do
  match ← pollKey with
  | some key => return some key
  | none =>
    match n with
    | 0 => return none
    | n + 1 => do
      Services.stall keyPollInterval
      pollFor n

/-- Polls that find a timeout not yet over, each followed by a wait. -/
def pollsIn (timeout : UInt32) : Nat := (timeout.toNat + 9) / 10

/-- The next key within a timeout. Without one, what is still to come of keystrokes decides, and
    when nothing is, the wait has no end. -/
def readKey (timeout : UInt32) : Uefi (Option Key) := do
  if timeout ≠ 0 then pollFor (pollsIn timeout)
  else
    match ← pollFor (← get).keys.length with
    | some key => return some key
    | none => throw .noKeyLeft

/-! ## The platform -/

def host (p : Platform) : Host Uefi where
  log := logIn
  allocatePages
  freePages
  readMemory base len := do return (← get).memory.bytesAt base len
  writeMemory base bytes := modify fun w => { w with memory := w.memory.write base bytes }
  imageHandle := return ownHandle
  loadedImage := Records.loadedImage
  setLoadedImage := Records.setLoadedImage
  readVariable
  verify := p.verify
  devicePath
  loadImage
  startImage
  unloadImage := Hooks.unload
  syncCaches _ _ := pure ()
  callEntry
  pxeMode := do
    match ← p.mode with
    | .ok mode => return mode.summary
    | .error _ => return .none
  dhcpServer := p.dhcpServer
  clientMac := p.clientMac
  discoverPacket := p.discoverPacket
  systemUuid
  reserve len := do return (← get).reserves len
  fileSize := p.fileSize
  receiveFile := p.receiveFile
  resolveHost := Dns.resolveHost p.device
  redirectBoot := p.redirectBoot
  print
  clear := Services.withOutput (see .clearScreen)
  cursor
  setCursor column row := Services.withOutput (see (.setCursor column row))
  setHighlight on := Services.withOutput (see (.setColors (if on then highlightColors else normalColors)))
  readKey
  sleep := Services.stall
  ticks := do return (← get).ticks
  keysAhead := do return (← get).keys.length
  setLogLimit limit := modify fun w => { w with logLimit := limit }

end Platform

end NetBoot.Uefi
