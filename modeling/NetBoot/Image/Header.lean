/-
  NetBoot.Image.Header — PE/COFF headers: the structures in a file, and what a loader keeps of
  them.

  Each structure is read at a position of a byte string and is `none` when the string ends
  within it. `Header.parse` checks the file in the order the format lays it out; the first check
  that fails decides the error. It reads the file alone: no memory of the machine is touched.
-/

import NetBoot.Check
import NetBoot.Address
import NetBoot.Log
import NetBoot.Text.Quoted
import NetBoot.Text.Utf8
import NetBoot.Image.Machine
import NetBoot.Image.Error

namespace NetBoot.Image

/-- What a loader is asked to accept, and how it maps. -/
structure LoaderConfig where
  /-- Alignment below which a section alignment needs no spare pages. -/
  pageSize : Nat := NetBoot.pageSize
  machine : Machine := .native
  /-- Validate images even without Secure Boot. -/
  forceValidation : Bool := false
  requireEfiApplication : Bool := true
  deriving DecidableEq, Repr

/-! ## The structures of a file -/

/-- `MZ`. -/
def dosMagic : UInt16 := 0x5A4D

/-- `PE`, two zero bytes. -/
def peSignature : UInt32 := 0x00004550

def dosStubSize : Nat := 64

/-- Where the DOS stub says where the PE signature is. -/
def signatureOffsetField : Nat := 60

structure CoffHeader where
  machine : UInt16
  numberOfSections : UInt16
  timeDateStamp : UInt32
  pointerToSymbolTable : UInt32
  numberOfSymbols : UInt32
  sizeOfOptionalHeader : UInt16
  characteristics : UInt16
  deriving DecidableEq, Repr

def CoffHeader.size : Nat := 20

def CoffHeader.at? (b : Bytes) (pos : Nat) : Option CoffHeader := do
  return ⟨← b.u16At? pos, ← b.u16At? (pos + 2), ← b.u32At? (pos + 4), ← b.u32At? (pos + 8),
    ← b.u32At? (pos + 12), ← b.u16At? (pos + 16), ← b.u16At? (pos + 18)⟩

/-- The two layouts of the optional header. -/
inductive OptionalForm where
  | pe32
  | pe32Plus
  deriving DecidableEq, Repr

namespace OptionalForm

def magic : OptionalForm → UInt16
  | pe32 => 0x10b
  | pe32Plus => 0x20b

def ofMagic? (n : UInt16) : Option OptionalForm :=
  if n = 0x10b then some pe32 else if n = 0x20b then some pe32Plus else none

/-- The preferred base: 32 bits wide in one form, 64 in the other. -/
def imageBase? (f : OptionalForm) (b : Bytes) : Option UInt64 :=
  match f with
  | pe32 => (b.u32At? 28).map UInt32.toUInt64
  | pe32Plus => b.u64At? 24

/-- Where the data directories start; their count stands in the word before. -/
def directories : OptionalForm → Nat
  | pe32 => 96
  | pe32Plus => 112

end OptionalForm

/-- The fields of an optional header that a loader reads. -/
structure OptionalHeader where
  form : OptionalForm
  entryPoint : UInt32
  imageBase : UInt64
  sectionAlignment : UInt32
  sizeOfImage : UInt32
  sizeOfHeaders : UInt32
  subsystem : UInt16
  numberOfDirectories : UInt32
  deriving DecidableEq, Repr

namespace OptionalHeader

/-- The fields at their positions in a form. -/
def ofForm? (f : OptionalForm) (b : Bytes) : Option OptionalHeader := do
  let imageBase ← f.imageBase? b
  return {
    form := f
    entryPoint := ← b.u32At? 16
    imageBase
    sectionAlignment := ← b.u32At? 32
    sizeOfImage := ← b.u32At? 56
    sizeOfHeaders := ← b.u32At? 60
    subsystem := ← b.u16At? 68
    numberOfDirectories := ← b.u32At? (f.directories - 4) }

def ofBytes? (b : Bytes) : Option OptionalHeader := do
  ofForm? (← OptionalForm.ofMagic? (← b.u16At? 0)) b

def isPe32Plus (o : OptionalHeader) : Bool := o.form == .pe32Plus

/-- The subsystem number of an EFI application. -/
def efiApplication : UInt16 := 10

def isEfiApplication (o : OptionalHeader) : Bool := o.subsystem == efiApplication

end OptionalHeader

structure DataDirectory where
  rva : UInt32
  size : UInt32
  deriving DecidableEq, Repr

def DataDirectory.entrySize : Nat := 8

def DataDirectory.at? (b : Bytes) (pos : Nat) : Option DataDirectory := do
  return ⟨← b.u32At? pos, ← b.u32At? (pos + 4)⟩

structure SectionHeader where
  /-- Eight bytes, filled with zeros. -/
  name : Bytes
  virtualSize : UInt32
  virtualAddress : UInt32
  sizeOfRawData : UInt32
  pointerToRawData : UInt32
  pointerToRelocations : UInt32
  pointerToLinenumbers : UInt32
  numberOfRelocations : UInt16
  numberOfLinenumbers : UInt16
  characteristics : UInt32
  deriving DecidableEq, Repr

def SectionHeader.size : Nat := 40

def SectionHeader.at? (b : Bytes) (pos : Nat) : Option SectionHeader := do
  return ⟨← b.slice? pos 8, ← b.u32At? (pos + 8), ← b.u32At? (pos + 12), ← b.u32At? (pos + 16),
    ← b.u32At? (pos + 20), ← b.u32At? (pos + 24), ← b.u32At? (pos + 28), ← b.u16At? (pos + 32),
    ← b.u16At? (pos + 34), ← b.u32At? (pos + 36)⟩

/-! ## What a loader keeps -/

structure ImageSection where
  name : Bytes
  virtualAddress : UInt32
  virtualSize : UInt32
  rawOffset : UInt32
  rawSize : UInt32
  flags : UInt32
  deriving DecidableEq, Repr

namespace ImageSection

def ofHeader (h : SectionHeader) : ImageSection :=
  ⟨h.name, h.virtualAddress, h.virtualSize, h.pointerToRawData, h.sizeOfRawData, h.characteristics⟩

/-- The name up to its first zero byte; empty when that is not UTF-8. -/
def nameText (s : ImageSection) : String := (Text.string? s.name.untilNul).getD ""

/-- The form for diagnostics. -/
def describe (s : ImageSection) : String :=
  "SectionDescriptor \x7b name: " ++ Text.quoted s.nameText ++
    ", virtual_address: " ++ Text.hex0x s.virtualAddress.toNat ++
    ", virtual_size: " ++ Text.hex0x s.virtualSize.toNat ++
    ", raw_data_offset: " ++ Text.hex0x s.rawOffset.toNat ++
    ", raw_data_size: " ++ Text.hex0x s.rawSize.toNat ++ " \x7d"

end ImageSection

structure Header where
  machine : Machine
  subsystem : UInt16
  isPe32Plus : Bool
  entryRva : UInt32
  imageBase : UInt64
  sectionAlignment : UInt32
  imageSize : UInt32
  headerSize : UInt32
  sectionTable : Nat
  sections : List ImageSection
  /-- The relocation table, if there is a non-empty one. -/
  reloc : Option DataDirectory
  deriving DecidableEq, Repr

namespace Header

/-- The number of the directory that points at the relocation table. -/
def relocationDirectory : Nat := 5

/-- The relocation table that the directories of an optional header name. -/
def relocation (optionalBytes : Bytes) (o : OptionalHeader) : Except LoadError (Option DataDirectory) :=
  if o.numberOfDirectories.toNat ≤ relocationDirectory then .ok none
  else do
    let directory ← demand
      (DataDirectory.at? optionalBytes (o.form.directories + relocationDirectory * DataDirectory.entrySize))
      .truncatedImage
    return if directory.size = 0 then none else some directory

/-- The `count` entries of the section table at `pos`. -/
def sectionTable? (raw : Bytes) (pos count : Nat) : Option (List ImageSection) :=
  (List.range count).mapM fun i =>
    (SectionHeader.at? raw (pos + SectionHeader.size * i)).map ImageSection.ofHeader

/-- The optional header of the file, in the form that its magic number names. -/
def optionalHeader (optionalBytes : Bytes) : Except LoadError OptionalHeader := do
  let magic ← demand (optionalBytes.u16At? 0) .truncatedImage
  let form ← demand (OptionalForm.ofMagic? magic) .notPeCoff
  demand (OptionalHeader.ofForm? form optionalBytes) .truncatedImage

def parse (raw : Bytes) (config : LoaderConfig) : Except LoadError Header := do
  need (dosStubSize ≤ raw.size) .truncatedImage
  need (raw.u16At? 0 = some dosMagic) .notPeCoff
  let signature := (← demand (raw.u32At? signatureOffsetField) .truncatedImage).toNat
  let coffStart := signature + 4
  let optionalStart := coffStart + CoffHeader.size
  need (optionalStart ≤ raw.size) .truncatedImage
  need (raw.u32At? signature = some peSignature) .notPeCoff
  let coff ← demand (CoffHeader.at? raw coffStart) .truncatedImage
  let tableStart := optionalStart + coff.sizeOfOptionalHeader.toNat
  need (tableStart ≤ raw.size) .truncatedImage
  need (coff.machine = config.machine.code) (.unsupportedMachine coff.machine)
  let optionalBytes := raw.extract optionalStart tableStart
  let optional ← optionalHeader optionalBytes
  need (config.requireEfiApplication = true → optional.isEfiApplication = true) .notEfiApplication
  let reloc ← relocation optionalBytes optional
  need (optional.sizeOfHeaders.toNat ≤ raw.size) .truncatedImage
  need (optional.sizeOfHeaders ≤ optional.sizeOfImage) .sectionOutsideImage
  need (optional.entryPoint < optional.sizeOfImage) .sectionOutsideImage
  let sections ← demand (sectionTable? raw tableStart coff.numberOfSections.toNat) .truncatedImage
  return {
    machine := config.machine
    subsystem := optional.subsystem
    isPe32Plus := optional.isPe32Plus
    entryRva := optional.entryPoint
    imageBase := optional.imageBase
    sectionAlignment := optional.sectionAlignment
    imageSize := optional.sizeOfImage
    headerSize := optional.sizeOfHeaders
    sectionTable := tableStart
    sections
    reloc }

/-! ## Diagnostics -/

private def headerTarget : String := "netchain_peimage::header"

/-- What is noted about a parsed file. -/
def notes (config : LoaderConfig) : Except LoadError Header → List Log.Record
  | .ok h =>
    [⟨.trace, headerTarget,
      "pe header: entry " ++ Text.hex0x h.entryRva.toNat ++ ", base " ++ Text.hex0x h.imageBase.toNat ++
        ", size " ++ Text.hex0x h.imageSize.toNat ++ s!", {h.sections.length} sections"⟩]
  | .error (.unsupportedMachine code) =>
    [⟨.debug, headerTarget,
      "image machine " ++ Text.hex0xPadded 4 code.toNat ++ ", native " ++
        Text.hex0xPadded 4 config.machine.code.toNat⟩]
  | _ => []

end Header

end NetBoot.Image
