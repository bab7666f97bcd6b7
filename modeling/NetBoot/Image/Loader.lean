/-
  NetBoot.Image.Loader — one image from file to exit, stage by stage.

  An image is selected, parsed, mapped, relocated and launched; or, when its signature has to be
  checked, validated and handed to the firmware. The loader keeps the stages it has entered. A
  failure anywhere goes straight back to `unloaded`, with whatever the attempt held given back.
-/

import NetBoot.Image.Fat
import NetBoot.Image.Launch
import NetBoot.Image.Secure

namespace NetBoot.Image

inductive Stage where
  /-- Nothing is held. -/
  | unloaded
  | headerParsed
  | mapped
  | relocated
  | launched
  /-- The signature is checked and the firmware has the image. -/
  | validatedPassthrough
  deriving DecidableEq, Repr

def Stage.text : Stage → String
  | unloaded => "unloaded"
  | headerParsed => "header parsed"
  | mapped => "mapped"
  | relocated => "relocated"
  | launched => "launched"
  | validatedPassthrough => "validated passthrough"

structure Loader where
  config : LoaderConfig := {}
  /-- The stages entered so far, in their order. -/
  history : List Stage := [.unloaded]
  deriving DecidableEq, Repr

namespace Loader

instance : Inhabited Loader := ⟨{}⟩

/-- The stage entered last. -/
def stage (l : Loader) : Stage := l.history.getLast?.getD .unloaded

def withStage (l : Loader) (s : Stage) : Loader := { l with history := l.history ++ [s] }

variable {m : Type → Type} [Monad m]

private def loaderTarget : String := "netchain_peimage::loader"

def enter (l : Loader) (fw : Firmware m) (s : Stage) : m Loader := do
  fw.trace loaderTarget s!"load state: {l.stage.text} -> {s.text}"
  return l.withStage s

/-- Back to `unloaded` for an error. -/
def fail (l : Loader) (fw : Firmware m) (e : LoadError) : m Loader := do
  fw.debug loaderTarget s!"load failed in state {l.stage.text}: {e.message}"
  l.enter fw .unloaded

/-- The part of a file that this loader takes. -/
def select (l : Loader) (fw : Firmware m) (raw : Bytes) : m (Except LoadError Bytes) := do
  let selection := Fat.select raw l.config.machine
  fw.logAll (Fat.notes l.config.machine selection)
  return selection.map (·.apply raw)

/-- The header of a file. -/
def parse (l : Loader) (fw : Firmware m) (raw : Bytes) : m (Except LoadError Header) := do
  let header := Header.parse raw l.config
  fw.logAll (Header.notes l.config header)
  return header

/-- Maps the file and relocates it for where it lies. -/
def mapAndRelocate (l : Loader) (fw : Firmware m) (raw : Bytes) (header : Header) :
    m (Loader × Except LoadError MappedImage) := do
  match ← MappedImage.map fw raw header l.config with
  | .error e => return (← l.fail fw e, .error e)
  | .ok image => do
    let l ← l.enter fw .mapped
    match ← image.relocate fw header (image.loadDelta header) with
    | .error e => do
      image.release fw
      return (← l.fail fw e, .error e)
    | .ok () => return (← l.enter fw .relocated, .ok image)

/-- Selects, parses, maps and relocates. The image is the caller's to run or to release. -/
def load (l : Loader) (fw : Firmware m) (raw : Bytes) :
    m (Loader × Except LoadError (Header × MappedImage)) := do
  match ← l.select fw raw with
  | .error e => return (← l.fail fw e, .error e)
  | .ok raw =>
    match ← l.parse fw raw with
    | .error e => return (← l.fail fw e, .error e)
    | .ok header => do
      let l ← l.enter fw .headerParsed
      let (l, image) ← l.mapAndRelocate fw raw header
      return (l, image.map (header, ·))

/-- Must signatures be checked? -/
def mustValidate (l : Loader) (fw : Firmware m) : m Bool :=
  if l.config.forceValidation then return true else Secure.secureMode fw

/-! ## By the firmware -/

/-- The record of an image that the firmware loaded, with what the context sets. -/
def firmwareRecord (context : LaunchContext) (record : LoadedImage) : LoadedImage :=
  { record with
    device := context.device.getD record.device
    options := if context.options.isEmpty then record.options else context.options }

/-- Gives the record of a firmware-loaded image what the context sets. An image without a record
    starts with what the firmware gave it. -/
def prepare (fw : Firmware m) (handle : Handle) (context : LaunchContext) : m Unit := do
  match ← fw.loadedImage handle with
  | .error _ => pure ()
  | .ok record =>
    match ← fw.setLoadedImage handle (firmwareRecord context record) with
    | .ok () => pure ()
    | .error e => fw.warn loaderTarget s!"cannot set load options of {handle.describe}: {e.message}"

/-- Lets the firmware load and start a validated image. -/
def runByFirmware (fw : Firmware m) (image : Bytes) (context : LaunchContext) : m (Except LoadError Exit) := do
  match ← fw.loadImage context.handle context.path image with
  | .error status => do
    fw.error loaderTarget s!"firmware LoadImage failed: {status.text}"
    return .error (.launchFailed status)
  | .ok handle => do
    prepare fw handle context
    let exit ← fw.startImage handle
    fw.info loaderTarget s!"firmware-loaded image returned {exit.status.text}"
    return .ok exit

/-- Back to `unloaded` after an attempt, whatever came of it. -/
def finish (l : Loader) (fw : Firmware m) (result : Except LoadError Exit) :
    m (Loader × Except LoadError Exit) := do
  match result with
  | .error e => return (← l.fail fw e, .error e)
  | .ok exit => return (← l.enter fw .unloaded, .ok exit)

/-- Checks the signature of the selected image and lets the firmware run exactly those bytes. -/
def launchValidated (l : Loader) (fw : Firmware m) (raw : Bytes) (context : LaunchContext) :
    m (Loader × Except LoadError Exit) := do
  match ← l.select fw raw with
  | .error e => l.finish fw (.error e)
  | .ok image =>
    match ← Secure.validate fw image with
    | .error e => l.finish fw (.error e)
    | .ok () => do
      let l ← l.enter fw .validatedPassthrough
      l.finish fw (← runByFirmware fw image context)

/-! ## By this program -/

/-- Loads an image and runs it until it exits; with validation, if that is asked for. -/
def loadAndLaunch (l : Loader) (fw : Firmware m) (traps : Cell m Traps) (raw : Bytes)
    (context : LaunchContext) : m (Loader × Except LoadError Exit) := do
  if ← l.mustValidate fw then l.launchValidated fw raw context
  else
    match ← l.load fw raw with
    | (l, .error e) => return (l, .error e)
    | (l, .ok (_, image)) => do
      let l ← l.enter fw .launched
      l.finish fw (← launch fw traps image context)

end Loader

end NetBoot.Image
