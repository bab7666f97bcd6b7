/-
  NetBoot.Image.Launch — running a mapped image.

  A launched image runs on a handle whose record describes something else, so the record is
  replaced for the time of the call and put back behind it. A trap on the handle collects an exit
  through the firmware's exit service. The image's pages are given back on every way out.
-/

import NetBoot.Image.Mapped
import NetBoot.Image.Traps

namespace NetBoot.Image

/-- What a launched image finds in the record of its handle. -/
structure LaunchContext where
  handle : Handle := .null
  /-- The device it came from; the one in the record when there is none. -/
  device : Option Handle := none
  path : Option DevicePath := none
  /-- The command line, zero-terminated. -/
  options : List UInt16 := []
  deriving DecidableEq, Repr

namespace LaunchContext

def onHandle (h : Handle) : LaunchContext := { handle := h }

def withCommandLine (c : LaunchContext) (text : String) : LaunchContext :=
  { c with options := Text.encodeUtf16 text.toList ++ [0] }

/-- The record that an image finds, made from the one that was there. -/
def record (c : LaunchContext) (saved : LoadedImage) (base : Address) (imageSize : UInt32) : LoadedImage :=
  { saved with
    device := c.device.getD saved.device
    path := c.path
    options := c.options
    base
    size := imageSize.toUInt64 }

end LaunchContext

variable {m : Type → Type} [Monad m]

private def launchTarget : String := "netchain_peimage::launch"

/-- Runs the image under its own record and a trap, and puts the record back. -/
def MappedImage.run (image : MappedImage) (fw : Firmware m) (traps : Cell m Traps) (handle : Handle)
    (saved : LoadedImage) : m Exit := do
  let token ← Traps.installIn fw.toJournal traps handle
  fw.syncCaches image.base image.size
  fw.info launchTarget
    ("starting image at " ++ Address.text image.base ++ ", entry " ++ Address.text image.entry)
  let returned ← fw.callEntry image.entry handle
  let exit := (← Traps.takeIn traps token).getD ⟨returned, none⟩
  fw.info launchTarget s!"image returned {exit.status.text}"
  match ← fw.setLoadedImage handle saved with
  | .ok () => pure ()
  | .error e =>
    fw.error launchTarget s!"cannot restore loaded-image record on {handle.describe}: {e.message}"
  return exit

/-- Runs a mapped image until it exits, and gives its pages back. -/
def launch (fw : Firmware m) (traps : Cell m Traps) (image : MappedImage) (context : LaunchContext) :
    m (Except LoadError Exit) := do
  let handle := context.handle
  match ← fw.loadedImage handle with
  | .error e => do
    fw.error launchTarget s!"no loaded-image record on {handle.describe}: {e.message}"
    image.release fw
    return .error (.launchFailed e.status)
  | .ok saved =>
    match ← fw.setLoadedImage handle (context.record saved image.base image.imageSize) with
    | .error e => do
      fw.error launchTarget s!"cannot update loaded-image record on {handle.describe}: {e.message}"
      image.release fw
      return .error (.launchFailed e.status)
    | .ok () => do
      let exit ← image.run fw traps handle saved
      image.release fw
      return .ok exit

end NetBoot.Image
