/-
  NetBoot.Image.Mapped — an image in memory: mapping a file, relocating in place, and giving the
  pages back.

  A mapped image owns the pages it was mapped into. Whoever holds one gives it back with
  `release`; nothing else frees its pages.
-/

import NetBoot.Platform
import NetBoot.Image.Layout
import NetBoot.Image.Relocation.Table

namespace NetBoot.Image

structure MappedImage where
  /-- The first page, and how many there are. -/
  allocation : Address
  pages : Nat
  /-- Where the image starts: aligned, so it may lie above the first page. -/
  base : Address
  size : Nat
  imageSize : UInt32
  entry : Address
  deriving DecidableEq, Repr

namespace MappedImage

variable {m : Type → Type} [Monad m]

private def mapTarget : String := "netchain_peimage::mapper"

/-- The image that a layout gives in freshly allocated pages. -/
def ofAllocation (allocation : Address) (layout : Layout) (header : Header) : MappedImage :=
  let base := Address.alignUp allocation (UInt64.ofNat layout.alignment)
  { allocation
    pages := layout.pages
    base
    size := layout.size
    imageSize := header.imageSize
    entry := base + header.entryRva.toUInt64 }

/-- What is noted about each section that was copied, and about the whole. -/
def mapNotes (image : MappedImage) (header : Header) : List Log.Record :=
  header.sections.map (fun s =>
    ⟨.trace, mapTarget,
      "section " ++ s.nameText.pushn ' ' (8 - s.nameText.length) ++
        " rva " ++ Text.hex0x s.virtualAddress.toNat ++ " size " ++ Text.hex0x s.virtualSize.toNat ++
        " (raw " ++ Text.hex0x s.rawSize.toNat ++ ")"⟩) ++
  [⟨.debug, mapTarget,
    "image mapped at " ++ Address.text image.base ++ ", entry " ++ Address.text image.entry⟩]

/-- Maps the file with this header into fresh pages. -/
def map (fw : Firmware m) (raw : Bytes) (header : Header) (config : LoaderConfig) :
    m (Except LoadError MappedImage) := do
  match Layout.of raw.size header config with
  | .error e => do
    fw.logAll (Layout.notes header e)
    return .error e
  | .ok layout =>
    match ← fw.allocatePages layout.pages with
    | .error _ => return .error .outOfMemory
    | .ok allocation => do
      let image := ofAllocation allocation layout header
      fw.writeMemory image.base (Layout.contents raw header layout.size)
      fw.logAll (image.mapNotes header)
      return .ok image

/-- Gives the pages back. -/
def release (image : MappedImage) (fw : Firmware m) : m Unit := do
  fw.trace mapTarget (s!"releasing {image.pages} pages at " ++ Address.text image.allocation)
  fw.freePages image.allocation image.pages

/-- The image as it lies in memory. -/
def contents (image : MappedImage) (fw : Firmware m) : m Bytes := fw.readMemory image.base image.size

/-- How far the image lies above the base it was built for. -/
def loadDelta (image : MappedImage) (header : Header) : UInt64 := image.base - header.imageBase

private def relocateTarget : String := "netchain_peimage::relocate"

/-- Relocates the image in place by `delta`. After a failure the fixups before it stay applied. -/
def relocate (image : MappedImage) (fw : Firmware m) (header : Header) (delta : UInt64) :
    m (Except LoadError Unit) := do
  match header.reloc with
  | none => do
    fw.debug relocateTarget "no relocations"
    return .ok ()
  | some table =>
    if image.size < header.imageSize.toNat then return .error .sectionOutsideImage
    else do
      let memory ← fw.readMemory image.base header.imageSize.toNat
      let (memory', result) := Relocation.apply memory table delta header.machine.family
      fw.writeMemory image.base memory'
      match result with
      | .error fault => do
        fw.logAll fault.notes
        return .error fault.error
      | .ok () => do
        fw.debug relocateTarget ("image relocated by " ++ Text.hex0x delta.toNat)
        return .ok ()

/-- The form for diagnostics. -/
def describe (image : MappedImage) : String :=
  "MappedImage \x7b base: " ++ Address.text image.base ++ ", size: " ++ Text.hex0x image.size ++
    ", entry: " ++ Address.text image.entry ++ s!", pages: {image.pages} \x7d"

end MappedImage

end NetBoot.Image
