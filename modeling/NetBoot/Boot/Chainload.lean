/-
  NetBoot.Boot.Chainload — running a network boot program in place of this one.

  The cached DHCP answer is made to name the program and its server first, so that the program
  finds there what it was started from. Then its file is fetched and run, by the loader of this
  library or by the firmware; an image whose signature has to be checked is checked either way.
-/

import NetBoot.Image.Loader
import NetBoot.Boot.Session
import NetBoot.Boot.Transfer

namespace NetBoot.Boot

/-! ## Boot file names -/

/-- Bytes of the path of a boot file. -/
def maxBootFile : Nat := 128

/-- What may stand in place of the root of a path. -/
def pxeRoot : List Char := "(pxe)".toList

/-- The full path of a boot file: with one root mark dropped, and a slash in front. -/
def absolutePath (name : List Char) : List Char :=
  let path := if pxeRoot.isPrefixOf name then name.drop pxeRoot.length else name
  if path.head? = some '/' then path else '/' :: path

/-- The path under which a boot file is fetched: the full one, cut to 128 bytes. -/
def bootFilePath (name : String) : String :=
  String.ofList (Text.cut maxBootFile (absolutePath name.toList))

/-! ## Running a program -/

/-- Who loads and starts a program. -/
inductive Strategy where
  | core
  | firmware
  deriving DecidableEq, Repr

instance : Inhabited Strategy := ⟨.core⟩

structure Chainloader where
  strategy : Strategy := .core
  /-- Check signatures even without Secure Boot. -/
  alwaysValidate : Bool := false
  deriving DecidableEq, Repr

namespace Chainloader

variable {m : Type → Type} [Monad m]

private def chainloadTarget : String := "netchain_pxe::chainload"

/-- The context of a program: this program's own handle and device, and the path of the file on
    that device. -/
def context (fw : Firmware m) (path : String) : m (Except BootError Image.LaunchContext) := do
  let handle ← fw.imageHandle
  match ← fw.loadedImage handle with
  | .error e => return .error (.loadImage e.status)
  | .ok record => do
    let device ← fw.devicePath record.device
    let file := (device.bind (·.withFile? path)).or record.path
    return .ok { handle, device := some record.device, path := file }

/-- Gives a firmware-loaded image the device of the context, starts it and unloads it. -/
def startLoaded (s : Session m) (image : Handle) (context : Image.LaunchContext) : m (Except BootError Exit) := do
  match ← s.host.loadedImage image with
  | .error e => return .error (.loadImage e.status)
  | .ok found => do
    let record := Image.Loader.firmwareRecord context found
    s.sayDebug ["image begin: ", Address.text record.base, "\nimage size: ",
      Text.hex0x record.size.toNat, "\n"]
    match ← s.host.setLoadedImage image record with
    | .error e => return .error (.loadImage e.status)
    | .ok () => do
      let exit ← s.host.startImage image
      let status ← s.host.unloadImage image
      if status.isError then
        s.host.toFirmware.debug chainloadTarget s!"UnloadImage({image.describe}): {status.text}"
      return .ok exit

/-- Lets the firmware load and start the part of the file that is for this machine. -/
def startByFirmware (s : Session m) (raw : Bytes) (context : Image.LaunchContext) :
    m (Except BootError Exit) := do
  match ← Image.Loader.select {} s.host.toFirmware raw with
  | .error e => return .error (.image e)
  | .ok part =>
    match ← s.host.loadImage context.handle context.path part with
    | .error status => do
      s.host.toFirmware.error chainloadTarget
        (if status = .outOfResources then "out of resources" else s!"cannot load image: {status.text}")
      return .error (.loadImage status)
    | .ok image => startLoaded s image context

/-- Runs a fetched file. -/
def start (c : Chainloader) (s : Session m) (traps : Cell m Image.Traps) (raw : Bytes)
    (context : Image.LaunchContext) : m (Except BootError Exit) := do
  let loader : Image.Loader := { config := { forceValidation := c.alwaysValidate } }
  let fw := s.host.toFirmware
  match c.strategy with
  | .core => return (← loader.loadAndLaunch fw traps raw context).2.mapError .image
  | .firmware =>
    if ← loader.mustValidate fw then return (← loader.launchValidated fw raw context).2.mapError .image
    else startByFirmware s raw context

/-- A program that does not end well has failed. -/
def conclude (s : Session m) (path : String) (exit : Exit) : m (Except BootError Exit) := do
  if exit.isSuccess then return .ok exit
  else
    let reason := exit.data.getD "unknown error"
    s.host.toFirmware.error chainloadTarget s!"{path} exited with {exit.status.text}: {reason}"
    return .error (.startImage exit.status)

/-- Fetches the file and runs it. -/
def fetchAndStart (c : Chainloader) (s : Session m) (traps : Cell m Image.Traps) (path : String)
    (server : Net.Ipv4) : m (Except BootError Exit) := do
  match ← Transfer.fetch s.host.toNetwork server path with
  | .error e => return .error e
  | .ok raw =>
    match ← context s.host.toFirmware path with
    | .error e => return .error e
    | .ok context =>
      match ← c.start s traps raw context with
      | .error e => return .error e
      | .ok exit => conclude s path exit

/-- Runs the program `name` of a server. It has ended well when there is no error. -/
def run (c : Chainloader) (s : Session m) (traps : Cell m Image.Traps) (name : String)
    (server : Net.Ipv4) : m (Except BootError Exit) := do
  if !(← s.host.pxeMode).isNetboot then
    s.host.toFirmware.error chainloadTarget "only PXE boot is supported"
    return .error .notNetBoot
  else if server.isUnspecified then return .error .invalidArgument
  else
    match ← s.host.redirectBoot name server with
    | .error e => return .error (.network e)
    | .ok () => do
      s.sayDebug ["BootFileName changed to: ", name, "\nBootServer-IP changed to: ", server.text, "\n"]
      s.debugDelay 5
      let path := bootFilePath name
      match ← c.fetchAndStart s traps path server with
      | .ok exit => return .ok exit
      | .error e => do
        s.say ["\nWindows PE network boot [", path, "] failed: ", e.message, "\n"]
        s.debugDelay 5
        return .error e

end Chainloader

end NetBoot.Boot
