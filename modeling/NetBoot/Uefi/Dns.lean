/-
  NetBoot.Uefi.Dns — looking a host name up with the firmware.

  Each lookup runs on a child of the service binding that is destroyed afterwards, and waits on
  an event that is closed afterwards, whatever happens in between. It waits ten milliseconds at a
  time and gives up after five seconds, when it cancels the request. An answer is copied, and its
  buffers are given back.
-/

import NetBoot.Uefi.Services

namespace NetBoot.Uefi.Dns

private def dnsTarget : String := "netchain_uefi::platform::network"

private def poolTarget : String := "netchain_uefi::platform"

/-- Milliseconds between two checks. -/
def pollInterval : UInt32 := 10

/-- Checks that may find the request still running before it is given up. -/
def maxPolls : Nat := 500

/-- The failure that a status stands for; without an address, the stack is not ready. -/
def check (status : Status) : Except ServiceError Unit :=
  if status = .noMapping then .error .notReady else ServiceError.check status

/-- Gives a buffer of the firmware back. -/
def freeBuffer (buffer : Nat) : Uefi Unit := do
  let status ← Services.freePool (.numbered buffer)
  if status.isError then logIn ⟨.debug, poolTarget, s!"FreePool failed: {status.text}"⟩

/-- Waits for the end of the request, at most `n` times more; has it come? -/
def await (n : Nat) : Uefi Bool := do
  if (← Services.checkEvent) = .notReady then
    match n with
    | 0 => do
      Services.cancel
      return false
    | n + 1 => do
      Services.poll
      Services.stall pollInterval
      await n
  else return true

/-- The first address of the answer, whose buffers are given back. -/
def takeAnswer : Uefi (Except ServiceError Net.Ipv4) := do
  match (← get).answer with
  | none => return .error .notFound
  | some answer => do
    match answer.list with
    | some (buffer, _) => freeBuffer buffer
    | none => pure ()
    freeBuffer answer.buffer
    modify fun w => { w with answer := none }
    match answer.count, answer.list with
    | _ + 1, some (_, addresses) => return .ok (addresses.headD .unspecified)
    | _, _ => return .error .notFound

/-- One request, from its start to its answer. -/
def request (name : String) : Uefi (Except ServiceError Net.Ipv4) := do
  match check (← Services.hostNameToIp name) with
  | .error e => return .error e
  | .ok () =>
    if ← await maxPolls then
      match check (← get).lookup.token with
      | .error e => return .error e
      | .ok () => takeAnswer
    else return .error .timeout

/-- A request with an event of its own. -/
def withEvent (name : String) : Uefi (Except ServiceError Net.Ipv4) := do
  match ServiceError.check (← Services.createEvent) with
  | .error e => return .error e
  | .ok () => do
    let result ← request name
    Services.closeEvent
    return result

/-- A request on the child. -/
def onChild (name : String) : Uefi (Except ServiceError Net.Ipv4) := do
  match ← Services.handleProtocol .dns dnsChild with
  | .error status => return .error (.ofStatus status)
  | .ok () =>
    match check (← Services.configure) with
    | .error e => return .error e
    | .ok () => withEvent name

/-- A lookup on a child of its own. -/
def lookUp (name : String) : Uefi (Except ServiceError Net.Ipv4) := do
  match ServiceError.check (← Services.createChild) with
  | .error e => return .error e
  | .ok () => do
    let result ← onChild name
    let status ← Services.destroyChild
    if status.isError then logIn ⟨.debug, dnsTarget, s!"DNS DestroyChild failed: {status.text}"⟩
    return result

/-- Is there a service binding, on the device or anywhere? -/
def hasBinding (device : Handle) : Uefi Bool := do
  if !device.isNull then
    if (← Services.handleProtocol .dnsServiceBinding device) matches .ok () then return true
  return (← Services.locateProtocol .dnsServiceBinding) matches .ok ()

/-- The address of a host, by the stack of a device. -/
def resolveHost (device : Handle) (name : String) : Uefi (Except ServiceError Net.Ipv4) := do
  if ← hasBinding device then lookUp name else return .error .notSupported

end NetBoot.Uefi.Dns
