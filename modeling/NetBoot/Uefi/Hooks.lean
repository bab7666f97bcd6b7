/-
  NetBoot.Uefi.Hooks — how the exits of directly launched images come back.

  While the hooks are installed, the exit and unload slots of a boot services table lead here. An
  exit on a handle that has a trap and a resume point is kept by the trap, and control goes back
  to the entry call that the point belongs to; everything that ran above it is abandoned. All else
  is forwarded to the services that were saved.

  The state of the hooks is guarded by a lock that is not re-entrant: whoever finds it taken waits
  for ever. Every operation holds it from beginning to end, except that an exit on a trapped
  handle and an unload let go of it before they act. A forwarded exit holds it while the firmware
  runs.
-/

import NetBoot.Uefi.Services

namespace NetBoot.Uefi

inductive HookError where
  | alreadyInstalled
  | invalidTable
  deriving DecidableEq, Repr

namespace HookError

def name : HookError → String
  | alreadyInstalled => "AlreadyInstalled"
  | invalidTable => "InvalidTable"

def message : HookError → String
  | alreadyInstalled => "exit hooks already installed"
  | invalidTable => "invalid boot services table"

end HookError

namespace Hooks

private def hooksTarget : String := "netchain_uefi::hooks"

/-! ## The lock -/

def lock : Uefi Unit := do
  let w ← get
  if w.hooks.locked then throw .lockHeld
  else set { w with hooks := { w.hooks with locked := true } }

def unlock : Uefi Unit := modify fun w => { w with hooks := { w.hooks with locked := false } }

/-- Does something with the lock held. It stays held if control does not come back. -/
def withLock {α : Type} (x : Uefi α) : Uefi α := do
  lock
  let a ← x
  unlock
  return a

/-! ## Putting the hooks in and taking them out -/

/-- The bytes of a boot services table. -/
def tableSize : Nat := 376

def editTable (table : Address) (f : BootServices → BootServices) : Uefi Unit := modify fun w =>
  match w.services.find? table with
  | none => w
  | some services => { w with services := w.services.insert table (f services) }

def setCrc (table : Address) (crc : UInt32) : Uefi Unit :=
  editTable table fun t => { t with header := { t.header with crc } }

/-- Makes the checksum of a table fit its contents; it is zero if the firmware gives none. -/
def updateCrc (table : Address) : Uefi Unit := do
  setCrc table 0
  let (status, crc) ← Services.calculateCrc tableSize
  if status.isSuccess then setCrc table crc

/-- Why the hooks cannot go into a table, if they cannot. -/
def refusal? (w : World) (table : Address) : Option HookError :=
  if w.hooks.saved.isSome then some .alreadyInstalled
  else match w.services.find? table with
    | none => some .invalidTable
    | some services =>
      if services.header.isValid TableHeader.bootServices then none else some .invalidTable

/-- Puts the hooks into a table. -/
def install (table : Address) : Uefi (Except HookError Unit) := withLock do
  let w ← get
  match refusal? w table with
  | some e => return .error e
  | none => do
    let services := (w.services.find? table).getD {}
    set { w with hooks := { w.hooks with
      saved := some ⟨table, services.exit, services.unload⟩
      routed := true } }
    editTable table fun t => { t with exit := .hook, unload := .hook }
    updateCrc table
    logIn ⟨.debug, hooksTarget, "Exit and UnloadImage hooked"⟩
    return .ok ()

/-- Puts the saved services back, and forgets everything. -/
def remove : Uefi Unit := withLock do
  match (← get).hooks.saved with
  | none => pure ()
  | some saved => do
    modify fun w => { w with hooks := { w.hooks with saved := none } }
    editTable saved.table fun t => { t with exit := saved.exit, unload := saved.unload }
    updateCrc saved.table
  modify fun w => { w with hooks := { w.hooks with routed := false, points := .empty } }
  logIn ⟨.debug, hooksTarget, "Exit and UnloadImage restored"⟩

/-! ## Resume points -/

def register (handle : Handle) (point : ResumePoint) : Uefi Unit := withLock do
  modify fun w => { w with hooks := { w.hooks with points := w.hooks.points.insert handle point } }

def unregister (handle : Handle) : Uefi Unit := withLock do
  modify fun w => { w with hooks := { w.hooks with points := w.hooks.points.erase handle } }

/-- Where an exit on a handle is resumed: it needs a trap and a point. -/
def route? (handle : Handle) : Uefi (Option ResumePoint) := withLock do
  let w ← get
  if w.hooks.routed && w.traps.isInstalled handle then return w.hooks.points.find? handle
  else return none

/-! ## The services behind the slots -/

/-- A call of the exit service with its data in a buffer. -/
structure Exiting where
  call : ExitCall
  buffer : Option Nat
  deriving DecidableEq, Repr

/-- The text of the exit data. -/
def Exiting.text (e : Exiting) : Option String :=
  (Text.Ucs2.decodeBuffer e.call.data e.call.size).map String.ofList

/-- The firmware's own exit. It does not come back to its caller when the firmware has started
    the image itself. -/
def firmwareExit (inside : Uefi Unit) (e : Exiting) : Uefi Status := do
  see (.exit e.call.handle e.call.status e.call.size e.buffer.isSome)
  inside
  let w ← get
  if w.pending.starts.contains e.call.handle then throw (.ended e.call.handle e.call.status)
  else return w.forced.exit.getD .success

/-- Gives back a buffer while the hooks are in. -/
def freeBuffer (buffer : Nat) : Uefi Unit := do
  if (← withLock do return (← get).hooks.saved.isSome) then
    let _ ← Services.freePool (.numbered buffer)

/-- An exit that has a resume point. -/
def resumeExit (e : Exiting) (point : ResumePoint) : Uefi Status := do
  match e.buffer with
  | some buffer => freeBuffer buffer
  | none => pure ()
  match ← Image.Traps.onExitIn journal trapsIn e.call.handle ⟨e.call.status, e.text⟩ with
  | .trapped => throw (.resumed point e.call.status)
  | .delegate => return .invalidParameter

/-- An exit that goes on to the firmware. -/
def forwardExit (inside : Uefi Unit) (e : Exiting) : Uefi Status := withLock do
  match (← get).hooks.saved with
  | none => return .unsupported
  | some saved =>
    match saved.exit with
    | .firmware => firmwareExit inside e
    | .hook => throw .lockHeld

def exitHook (inside : Uefi Unit) (e : Exiting) : Uefi Status := do
  match ← route? e.call.handle with
  | some point => resumeExit e point
  | none => forwardExit inside e

def unloadHook (handle : Handle) : Uefi Status := do
  let (saved, routed) ← withLock do
    let w ← get
    return (w.hooks.saved, w.hooks.routed)
  let traps := (← get).traps
  match if routed then traps.onUnload handle else none with
  | some status => do
    logIn ⟨.debug, hooksTarget, s!"unload of {handle.describe} refused: {status.text}"⟩
    return status
  | none =>
    match saved with
    | none => return .unsupported
    | some saved =>
      match saved.unload with
      | .firmware => Services.unloadImage handle
      | .hook => throw .endlessCall

/-- A call through the exit slot of the table. `inside` is what the firmware does before it
    answers. -/
def exit (inside : Uefi Unit) (call : ExitCall) : Uefi Status := do
  let buffer ← if call.data.isSome then do pure (some (← newBuffer)) else pure none
  let w ← get
  match ((w.services.find? w.bootServices).getD {}).exit with
  | .firmware => firmwareExit inside ⟨call, buffer⟩
  | .hook => exitHook inside ⟨call, buffer⟩

/-- A call through the unload slot of the table. -/
def unload (handle : Handle) : Uefi Status := do
  let w ← get
  match ((w.services.find? w.bootServices).getD {}).unload with
  | .firmware => Services.unloadImage handle
  | .hook => unloadHook handle

end Hooks

/-! ## Running images -/

/-- Runs what may be resumed at a point. -/
def untilResumed (point : ResumePoint) (x : Uefi Status) : Uefi Status := fun w =>
  match x w with
  | .error (.resumed p status) w' => if p = point then .ok status w' else .error (.resumed p status) w'
  | r => r

/-- Runs what the firmware may end, as it ends an image that it has started. -/
def untilEnded (handle : Handle) (x : Uefi (Option Status)) : Uefi (Option Status) := fun w =>
  match x w with
  | .error (.ended h status) w' => if h = handle then .ok (some status) w' else .error (.ended h status) w'
  | r => r

/-- A resume point of its own for an entry call. -/
def newPoint : Uefi ResumePoint := do
  let w ← get
  set { w with nextPoint := w.nextPoint + 1 }
  return ⟨w.nextPoint⟩

def setPending (f : Pending → Pending) : Uefi Unit := modify fun w => { w with pending := f w.pending }

/-- Calls the entry point of an image, which does `body` and returns a status. -/
def enter (handle : Handle) (body : Uefi Status) : Uefi Status := do
  let point ← newPoint
  let before := (← get).pending
  Hooks.register handle point
  setPending fun p => { p with entries := point :: p.entries }
  let status ← untilResumed point do
    see (.enter handle)
    body
  setPending fun _ => before
  Hooks.unregister handle
  return status

/-- Has the firmware start an image, which does `body`; the status of an exit that ended it. -/
def started (handle : Handle) (body : Uefi Unit) : Uefi (Option Status) := do
  let before := (← get).pending
  see (.startImage handle)
  setPending fun p => { p with starts := handle :: p.starts }
  let ended ← untilEnded handle do
    body
    return none
  setPending fun _ => before
  return ended

mutual

def perform : Act → Uefi Unit
  | .exit call inside => do
    let status ← Hooks.exit (performAll inside) call
    see (.exitReturned status)
  | .unload handle => do
    let status ← Hooks.unload handle
    see (.unloadReturned status)
  | .launch handle acts status => do
    let token ← Image.Traps.installIn journal trapsIn handle
    let _ ← enter handle do
      performAll acts
      return status
    let _ ← Image.Traps.takeIn trapsIn token
  | .start handle acts => do
    let _ ← started handle (performAll acts)

def performAll : List Act → Uefi Unit
  | [] => pure ()
  | act :: acts => do
    perform act
    performAll acts

end

/-- Calls the entry point of an image that follows a script. -/
def enterScript (handle : Handle) (script : Script) : Uefi Status :=
  enter handle do
    performAll script.acts
    return script.status

end NetBoot.Uefi
