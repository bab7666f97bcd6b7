/-
  NetBoot.Image.Layout — where an image goes in memory, and what its memory holds.

  `Layout.of` makes every check that mapping needs before any memory is asked for. `contents` is
  the image as it lies in memory: the headers at the front, each section at its address with the
  part that the file does not hold filled with zeros, zeros elsewhere; where sections overlap the
  later one wins.
-/

import NetBoot.Check
import NetBoot.Image.Header

namespace NetBoot.Image

/-- Sizes of the memory of an image. -/
structure Layout where
  alignment : Nat
  /-- The size of the image, rounded up to its alignment. -/
  size : Nat
  /-- Pages to ask for, spare ones for the alignment included. -/
  pages : Nat
  deriving DecidableEq, Repr

namespace Layout

def isPowerOfTwo (n : Nat) : Bool := n != 0 && n &&& (n - 1) == 0

/-- `n` rounded up to `alignment`; `none` above 64 bits. -/
def alignUp? (n alignment : Nat) : Option Nat :=
  let sum := n + (alignment - 1)
  if sum < UInt64.size then some (UInt64.ofNat sum &&& ~~~UInt64.ofNat (alignment - 1)).toNat else none

/-- Does a section begin within the headers, in memory or in the file? -/
def overlapsHeaders (header : Header) (s : ImageSection) : Bool :=
  s.virtualAddress < header.headerSize || (s.rawSize != 0 && s.rawOffset < header.headerSize)

/-- The bounds that a section has to keep, in a file of `rawSize` bytes. -/
def checkSection (header : Header) (rawSize : Nat) (s : ImageSection) : Except LoadError Unit := do
  need (overlapsHeaders header s = false) .sectionInsideHeader
  need (s.rawOffset.toNat + s.rawSize.toNat ≤ rawSize) .truncatedImage
  need (s.virtualAddress.toNat + s.virtualSize.toNat ≤ header.imageSize.toNat) .sectionOutsideImage

def checkSections (header : Header) (rawSize : Nat) : List ImageSection → Except LoadError Unit
  | [] => .ok ()
  | s :: r => do
    checkSection header rawSize s
    checkSections header rawSize r

/-- The layout of a file of `rawSize` bytes with this header. -/
def of (rawSize : Nat) (header : Header) (config : LoaderConfig) : Except LoadError Layout := do
  need (isPowerOfTwo header.sectionAlignment.toNat = true) .invalidAlignment
  checkSections header rawSize header.sections
  need (header.headerSize.toNat ≤ rawSize) .truncatedImage
  let alignment := max header.sectionAlignment.toNat config.pageSize
  let spare := alignment - config.pageSize
  let size ← demand (alignUp? header.imageSize.toNat alignment) .sectionOutsideImage
  need (size + spare < UInt64.size) .sectionOutsideImage
  need (header.headerSize.toNat ≤ size) .sectionOutsideImage
  return ⟨alignment, size, pagesFor (size + spare)⟩

private def layoutTarget : String := "netchain_peimage::mapper"

/-- What is noted when a layout is refused: the section that lies over the headers. -/
def notes (header : Header) : LoadError → List Log.Record
  | .sectionInsideHeader =>
    match header.sections.find? (overlapsHeaders header) with
    | some s => [⟨.debug, layoutTarget, s!"section {s.nameText} overlaps the headers"⟩]
    | none => []
  | _ => []

/-! ## Contents -/

/-- A section as it lies in memory. -/
def sectionBytes (raw : Bytes) (s : ImageSection) : Bytes :=
  let start := s.rawOffset.toNat
  let held := min s.virtualSize.toNat s.rawSize.toNat
  Bytes.resize (raw.extract start (start + held)) s.virtualSize.toNat

/-- The `size` bytes of memory of an image. -/
def contents (raw : Bytes) (header : Header) (size : Nat) : Bytes :=
  header.sections.foldl (fun memory s => memory.overwrite s.virtualAddress.toNat (sectionBytes raw s))
    ((Bytes.zeros size).overwrite 0 (raw.extract 0 header.headerSize.toNat))

end Layout

end NetBoot.Image
