/-
  NetBoot.Sim.Machine — the services of a simulated machine.

  An image that is started here is played by a script. It may launch others, which run on the same
  machine: `machine n` lets launches nest `n` deep, and as each entry call takes one script away,
  the number of scripts is deep enough (`Sim.host`).
-/

import NetBoot.Sim.World

namespace NetBoot.Sim

private def simTarget : String := "netchain_hal::mock"

/-! ## Memory -/

/-- No allocation is larger, so that its end is still below 2^63. -/
def maxAllocation : Nat := 0x8000000000000000 - pageSize

/-- The run of pages that a request gets. -/
def takePages (w : World) (pages : Nat) : Except ServiceError (Address × Memory) := do
  need (w.failAllocations = false ∧ pages ≠ 0) .outOfMemory
  need (pages * pageSize ≤ maxAllocation) .invalidParameter
  demand (w.memory.take? pages) .outOfMemory

def allocatePages (pages : Nat) : Sim (Except ServiceError Address) := do
  let w ← get
  match takePages w pages with
  | .error e => do
    emit (.allocatePages pages (.error e))
    return .error e
  | .ok (base, memory) => do
    set { w with
      memory
      allocations := w.allocations.insert base pages
      allocationCount := w.allocationCount + 1 }
    keepLog ⟨.trace, simTarget, s!"mock: allocated {pages} pages at " ++ Address.text base⟩
    emit (.allocatePages pages (.ok base))
    return .ok base

def freePages (base : Address) (pages : Nat) : Sim Unit := do
  emit (.freePages base pages)
  let w ← get
  match w.allocations.find? base with
  | none => throw (.unknownAllocation base)
  | some live =>
    set { w with allocations := w.allocations.erase base }
    if live ≠ pages then throw (.wrongPageCount live pages)

/-! ## Images -/

def loadedImage (handle : Handle) : Sim (Except ServiceError LoadedImage) := do
  let w ← get
  match w.recordFaults.find? handle with
  | some e => return .error e
  | none =>
    match w.records.find? handle with
    | some record => return .ok record
    | none => return .error .notFound

def setLoadedImage (handle : Handle) (record : LoadedImage) : Sim (Except ServiceError Unit) := do
  emit (.setLoadedImage handle record)
  let w ← get
  let updates := w.updates + 1
  match w.updateFaults.find? updates with
  | some e => do
    set { w with updates }
    return .error e
  | none =>
    if w.records.contains handle then
      set { w with updates, records := w.records.insert handle record }
      return .ok ()
    else
      set { w with updates }
      return .error .notFound

/-- The verdict of the verifier, which keeps the size of what it is given when it is a recording one. -/
def judge (image : Bytes) : Sim (Option Status) := do
  let w ← get
  match w.verifier with
  | .absent => return none
  | .answering status => return some status
  | .recording accept sizes => do
    set { w with verifier := .recording accept (sizes ++ [image.size]) }
    return some (if accept then .success else .securityViolation)

def verify (image : Bytes) : Sim (Option Status) := do
  let answer ← judge image
  emit (.verify image answer)
  return answer

def loadImage (parent : Handle) (path : Option DevicePath) (source : Bytes) : Sim (Except Status Handle) := do
  let w ← get
  match w.loadImageError with
  | some status => do
    emit (.loadImage parent path source (.error status))
    return .error status
  | none => do
    let handle : Handle := ⟨w.nextHandle + 1⟩
    set { w with
      nextHandle := w.nextHandle + 1
      records := w.records.insert handle { parent, size := UInt64.ofNat source.size } }
    emit (.loadImage parent path source (.ok handle))
    return .ok handle

def startImage (handle : Handle) : Sim Exit := do
  emit (.startImage handle)
  modify fun w => { w with started := w.started ++ [handle] }
  return (← get).startOutcome

def unloadImage (handle : Handle) : Sim Status := do
  emit (.unloadImage handle)
  let w ← get
  match w.unloadStatus with
  | some status => return status
  | none => do
    set { w with unloaded := w.unloaded ++ [handle], records := w.records.erase handle }
    return if w.records.contains handle then .success else .invalidParameter

/-! ## Entry calls -/

/-- One act of a running image; `launch` runs an image on a handle. -/
def perform (launch : Handle → Bytes → Sim (Except Image.LoadError Exit)) : Act → Sim Unit
  | .exit handle exit => do
    emit (.act (.exited (← Image.Traps.onExitIn ⟨keepLog⟩ trapsCell handle exit)))
  | .unload handle => do
    emit (.act (.unloaded ((← trapsCell.get).onUnload handle)))
  | .launch handle image => do
    emit (.act (.launched (← launch handle image)))

/-- The acts of a running image, in their order. -/
def performAll (launch : Handle → Bytes → Sim (Except Image.LoadError Exit)) : List Act → Sim Unit
  | [] => pure ()
  | act :: acts => do
    perform launch act
    performAll launch acts

/-- Runs the next script; what it returns is also what entry points return from then on. -/
def runScript (launch : Handle → Bytes → Sim (Except Image.LoadError Exit)) : Sim Unit := do
  let w ← get
  match w.entries with
  | [] => pure ()
  | script :: entries => do
    set { w with entries }
    performAll launch script.acts
    modify fun w => { w with entryStatus := script.status }

def callEntry (launch : Handle → Bytes → Sim (Except Image.LoadError Exit)) (entry : Address)
    (handle : Handle) : Sim Status := do
  let w ← get
  emit (.callEntry entry handle (w.records.find? handle) (w.imageMemory? handle) (w.traps.isInstalled handle))
  runScript launch
  modify fun w => { w with
    entryCalls := w.entryCalls ++ [(entry, handle)]
    recordsAtEntry := w.recordsAtEntry ++ [(w.records.find? ownHandle).getD {}] }
  return (← get).entryStatus

/-! ## Network -/

/-- Does a size query of this name fail? If so, one failure less is left. -/
def takeFailure (name : String) : Sim Bool := do
  let w ← get
  match w.sizeFailures.find? name with
  | some (n + 1) => do
    set { w with sizeFailures := w.sizeFailures.insert name n }
    return true
  | _ => return false

/-- The size of a file, which an answer of its own may stand in for. -/
def trueSize (server : Net.Ipv4) (name : String) : Sim (Except ServiceError UInt64) := do
  if ← takeFailure name then return .error (.firmware .tftpError)
  else
    let w ← get
    match w.files.lookup (server, name) with
    | none => return .error (.firmware .tftpError)
    | some data => return .ok ((w.sizes.find? name).getD (UInt64.ofNat data.size))

def fileSize (server : Net.Ipv4) (name : String) : Sim (Except ServiceError UInt64) := do
  let result ← trueSize server name
  emit (.fileSize server name result)
  return result

/-- The file, if the buffer holds it. -/
def copyFile (server : Net.Ipv4) (name : String) (len : Nat) : Sim (Except ServiceError Nat × Bytes) := do
  let w ← get
  match w.readFaults.find? name with
  | some e => return (.error e, #[])
  | none => do
    set { w with reads := w.reads ++ [(server, name)] }
    match w.files.lookup (server, name) with
    | none => return (.error (.firmware .tftpError), #[])
    | some data =>
      if len < data.size then return (.error (.firmware .bufferTooSmall), #[])
      else return (.ok data.size, data)

def receiveFile (server : Net.Ipv4) (name : String) (len : Nat) : Sim (Except ServiceError Nat × Bytes) := do
  let (result, buffer) ← copyFile server name len
  emit (.receiveFile server name len result)
  return (result, buffer)

/-- The address of a host, or that the stack is not ready. -/
def lookUp (name : String) : Sim (Except ServiceError Net.Ipv4) := do
  let w ← get
  let lookups := w.lookups ++ [name]
  match w.lookupsNotReady with
  | n + 1 => do
    set { w with lookups, lookupsNotReady := n }
    return .error .notReady
  | 0 => do
    set { w with lookups }
    match w.hosts.find? name with
    | some address => return .ok address
    | none => return .error .notFound

def resolveHost (name : String) : Sim (Except ServiceError Net.Ipv4) := do
  let result ← lookUp name
  emit (.resolve name result)
  return result

def redirectBoot (file : String) (server : Net.Ipv4) : Sim (Except ServiceError Unit) := do
  let w ← get
  if w.pxeMode.contains .dhcpAckReceived then
    set { w with
      redirects := w.redirects ++ [(file, server)]
      pxeMode := w.pxeMode.without (.union .proxyOfferReceived .pxeReplyReceived) }
    emit (.redirect file server (.ok ()))
    return .ok ()
  else
    emit (.redirect file server (.error .notFound))
    return .error .notFound

/-! ## Console -/

def clear : Sim Unit := do
  emit .clear
  modify fun w => { w with clears := w.clears + 1, cursor := (0, 0) }

def setCursor (column row : Nat) : Sim Unit := do
  emit (.setCursor column row)
  modify fun w => { w with cursor := (column, row) }

def setHighlight (on : Bool) : Sim Unit := do
  emit (.highlight on)
  modify fun w => { w with highlight := on }

/-- A read that times out takes its whole time. With no key left, a read without a time limit never
    comes back. -/
def readKey (timeout : UInt32) : Sim (Option Key) := do
  let w ← get
  let w := { w with keyTimeouts := w.keyTimeouts ++ [timeout] }
  match w.keys with
  | some key :: keys => do
    set { w with keys }
    emit (.readKey timeout (some (some key)))
    return some key
  | none :: keys => do
    set { w with keys, clock := w.clock + timeout.toUInt64 }
    emit (.readKey timeout (some none))
    return none
  | [] => do
    if timeout = 0 then
      set w
      emit (.readKey timeout none)
      throw .noKeyLeft
    else
      set { w with clock := w.clock + timeout.toUInt64 }
      emit (.readKey timeout (some none))
      return none

def sleep (ms : UInt32) : Sim Unit := do
  emit (.sleep ms)
  modify fun w => { w with sleeps := w.sleeps ++ [ms], clock := w.clock + ms.toUInt64 }

/-! ## The machine -/

/-- The machine on which a running image launches others with `launch`. -/
def machineWith (launch : Handle → Bytes → Sim (Except Image.LoadError Exit)) : Host Sim where
  log := keepLog
  allocatePages
  freePages
  readMemory base len := do return (← get).memory.bytesAt base len
  writeMemory base bytes := modify fun w => { w with memory := w.memory.write base bytes }
  imageHandle := return ownHandle
  loadedImage
  setLoadedImage
  readVariable name _ := do return (← get).nvram.find? name
  verify
  devicePath handle := do return (← get).devicePaths.find? handle
  loadImage
  startImage
  unloadImage
  syncCaches base len := emit (.syncCaches base len)
  callEntry := callEntry launch
  pxeMode := do return (← get).pxeMode
  dhcpServer := do
    match (← get).dhcpServer with
    | some server => return .ok server
    | none => return .error .notFound
  clientMac := do return (← get).mac
  discoverPacket := do
    let packet := (← get).discover
    return if packet.isEmpty then .error .notFound else .ok packet
  systemUuid := do return (← get).uuid
  reserve len := do return (← get).reserves len
  fileSize
  receiveFile
  resolveHost
  redirectBoot
  print text := emit (.print text)
  clear
  cursor := do
    let w ← get
    return w.fixedCursor.getD w.cursor
  setCursor
  setHighlight
  readKey
  sleep
  ticks := do return (← get).clock
  keysAhead := do return (← get).keys.length
  setLogLimit limit := modify fun w => { w with logLimit := limit }

/-- The machine with launches nested at most `n` deep. -/
def machine : Nat → Host Sim
  | 0 => machineWith fun _ _ => return .error .outOfMemory
  | n + 1 => machineWith fun handle image => do
    return (← Image.Loader.loadAndLaunch {} (machine n).toFirmware trapsCell image (.onHandle handle)).2

/-- The machine deep enough for the scripts that are left. -/
def host : Sim (Host Sim) := do return machine (← get).entries.length

end NetBoot.Sim
