/-
  NetBoot.Image.Sample — a writer of small images, the counterpart of the header parser.

  A sample is described by its header fields, its sections and its fixups. `Sample.build` lays the
  headers out in the first 1024 bytes and each section's data behind them, on 512-byte
  boundaries; `encodeBlocks` writes fixups as a relocation table.
-/

import NetBoot.Image.Header
import NetBoot.Image.Relocation.Table
import NetBoot.Table

namespace NetBoot.Image

/-- Fixups as relocation blocks: one for each page in ascending order, each filled up to a
    multiple of four bytes. -/
def Relocation.encodeBlocks (fixups : List (UInt8 × UInt32)) : Bytes :=
  (blocks fixups).foldr (fun b r => encodeBlock b.1 b.2 ++ r) #[]
where
  /-- The entry words of each page. -/
  blocks (fixups : List (UInt8 × UInt32)) : List (UInt32 × List UInt16) :=
    (fixups.foldl (fun t (kind, rva) =>
      let page := rva &&& ~~~0xFFF
      t.insert page ((t.find? page).getD [] ++ [Entry.toWord ⟨kind, (rva &&& 0xFFF).toUInt16⟩]))
      (Table.empty : Table UInt32 (List UInt16))).pairs
  encodeBlock (page : UInt32) (words : List UInt16) : Bytes :=
    let words := if words.length % 2 = 1 then words ++ [0] else words
    Bytes.ofU32 page ++ Bytes.ofU32 (UInt32.ofNat (blockHeaderSize + 2 * words.length)) ++
      words.foldr (fun w r => Bytes.ofU16 w ++ r) #[]

structure SampleSection where
  name : String
  rva : UInt32
  virtualSize : UInt32
  data : Bytes
  deriving DecidableEq, Repr

namespace SampleSection

/-- Where its memory and its data both end. -/
def stop (s : SampleSection) : UInt32 := s.rva + max s.virtualSize (UInt32.ofNat s.data.size)

/-- Does its data cover these bytes? -/
def covers (s : SampleSection) (rva : UInt32) (len : Nat) : Bool :=
  s.rva ≤ rva && rva.toNat + len ≤ s.rva.toNat + s.data.size

end SampleSection

structure Sample where
  machine : UInt16 := Machine.native.code
  form : OptionalForm := .pe32Plus
  subsystem : UInt16 := OptionalHeader.efiApplication
  entry : UInt32 := 0x1000
  imageBase : UInt64 := 0x140000000
  sectionAlignment : UInt32 := 0x1000
  /-- Computed from the sections when there is none. -/
  imageSize : Option UInt32 := none
  headerSize : UInt32 := 0x400
  directoryCount : UInt32 := 16
  sections : List SampleSection := []
  /-- Kind and place of each fixup. -/
  fixups : List (UInt8 × UInt32) := []
  /-- Stands in place of the table of the fixups. -/
  relocTable : Option Bytes := none
  deriving Repr

namespace Sample

def peOffset : Nat := 0x40

def optionalOffset : Nat := peOffset + 4 + CoffHeader.size

/-- Where the data of the sections starts in the file. -/
def dataStart : Nat := 0x400

def fileAlignment : Nat := 0x200

/-- Rounded up to a power of two. -/
def alignUp (n alignment : UInt32) : UInt32 := (n + alignment - 1) &&& ~~~(alignment - 1)

def withSection (s : Sample) (name : String) (rva virtualSize : UInt32) (data : Bytes) : Sample :=
  { s with sections := s.sections ++ [⟨name, rva, virtualSize, data⟩] }

def withFixup (s : Sample) (kind : UInt8) (rva : UInt32) : Sample :=
  { s with fixups := s.fixups ++ [(kind, rva)] }

/-- Replaces the bytes at `rva` in the first section that covers them. -/
def pokeIn (rva : UInt32) (bytes : Bytes) : List SampleSection → List SampleSection
  | [] => []
  | s :: r =>
    if s.covers rva bytes.size then
      { s with data := s.data.overwrite (rva - s.rva).toNat bytes } :: r
    else s :: pokeIn rva bytes r

/-- Writes bytes at `rva`, into a new page of data when no section covers them. -/
def poke (s : Sample) (rva : UInt32) (bytes : Bytes) : Sample :=
  if s.sections.any (·.covers rva bytes.size) then { s with sections := pokeIn rva bytes s.sections }
  else
    let page := rva &&& ~~~0xFFF
    { s with
      sections := s.sections ++
        [⟨".data", page, 0x1000, (Bytes.zeros 0x1000).overwrite (rva - page).toNat bytes⟩] }

/-- A 32-bit value with its fixup. -/
def withHighLow (s : Sample) (rva v : UInt32) : Sample :=
  (s.poke rva (Bytes.ofU32 v)).withFixup Relocation.Entry.highLow rva

/-- A 64-bit value with its fixup. -/
def withDir64 (s : Sample) (rva : UInt32) (v : UInt64) : Sample :=
  (s.poke rva (Bytes.ofU64 v)).withFixup Relocation.Entry.dir64 rva

def memoryEnd (sections : List SampleSection) : UInt32 := (sections.map (·.stop)).foldl max 0

/-- The relocation table, if the sample has one. -/
def table (s : Sample) : Option Bytes :=
  match s.relocTable with
  | some t => some t
  | none => if s.fixups.isEmpty then none else some (Relocation.encodeBlocks s.fixups)

/-- Where the relocation table goes: behind the sections, on a page of its own. -/
def relocRva (s : Sample) : UInt32 := alignUp (max (memoryEnd s.sections) 0x1000) 0x1000

/-- The sections, with one for the relocation table. -/
def allSections (s : Sample) : List SampleSection :=
  match s.table with
  | some t => s.sections ++ [⟨".reloc", s.relocRva, UInt32.ofNat t.size, t⟩]
  | none => s.sections

def sizeOfImage (s : Sample) : UInt32 :=
  s.imageSize.getD (alignUp (max (memoryEnd s.allSections) 0x2000) (max s.sectionAlignment 1))

/-- Size of the optional header, its sixteen directories included. -/
def optionalSize (s : Sample) : Nat := s.form.directories + 16 * DataDirectory.entrySize

def sectionTableOffset (s : Sample) : Nat := optionalOffset + s.optionalSize

/-- What the optional header holds, as fields and their positions in it. -/
def optionalFields (s : Sample) : List (Nat × Bytes) :=
  [(0, Bytes.ofU16 s.form.magic),
    match s.form with
    | .pe32 => (28, Bytes.ofU32 s.imageBase.toUInt32)
    | .pe32Plus => (24, Bytes.ofU64 s.imageBase),
    (16, Bytes.ofU32 s.entry), (32, Bytes.ofU32 s.sectionAlignment),
    (36, Bytes.ofU32 (UInt32.ofNat fileAlignment)), (56, Bytes.ofU32 s.sizeOfImage),
    (60, Bytes.ofU32 s.headerSize), (68, Bytes.ofU16 s.subsystem),
    (s.form.directories - 4, Bytes.ofU32 s.directoryCount)] ++
  match s.table with
  | some t =>
    let directory := s.form.directories + Header.relocationDirectory * DataDirectory.entrySize
    [(directory, Bytes.ofU32 s.relocRva), (directory + 4, Bytes.ofU32 (UInt32.ofNat t.size))]
  | none => []

/-- What the headers hold, as fields and their positions in the file. -/
def headerFields (s : Sample) : List (Nat × Bytes) :=
  [(0, Bytes.ofU16 dosMagic), (signatureOffsetField, Bytes.ofU32 (UInt32.ofNat peOffset)),
    (peOffset, Bytes.ofU32 peSignature), (peOffset + 4, Bytes.ofU16 s.machine),
    (peOffset + 6, Bytes.ofU16 (UInt16.ofNat s.allSections.length)),
    (peOffset + 20, Bytes.ofU16 (UInt16.ofNat s.optionalSize)), (peOffset + 22, Bytes.ofU16 0x22)] ++
  s.optionalFields.map fun (pos, bytes) => (optionalOffset + pos, bytes)

/-- What the section table entry of a section with its data at `offset` holds. -/
def sectionFields (entry offset : Nat) (s : SampleSection) : List (Nat × Bytes) :=
  [(entry, (Bytes.ofString s.name).extract 0 8), (entry + 8, Bytes.ofU32 s.virtualSize),
    (entry + 12, Bytes.ofU32 s.rva), (entry + 16, Bytes.ofU32 (UInt32.ofNat s.data.size)),
    (entry + 20, Bytes.ofU32 (if s.data.isEmpty then 0 else UInt32.ofNat offset)),
    (entry + 36, Bytes.ofU32 0x60000020)]

def writeAll (raw : Bytes) (fields : List (Nat × Bytes)) : Bytes :=
  fields.foldl (fun raw f => raw.overwrite f.1 f.2) raw

/-- The size of a file of `n` bytes filled up to the file alignment. -/
def fileAlign (n : Nat) : Nat := (n + (fileAlignment - 1)) / fileAlignment * fileAlignment

/-- Adds the sections, with their entries in the section table from `entry` on. -/
def addSections (raw : Bytes) (entry : Nat) : List SampleSection → Bytes
  | [] => raw
  | s :: r =>
    let raw := writeAll raw (sectionFields entry raw.size s) ++ s.data
    addSections (Bytes.resize raw (fileAlign raw.size)) (entry + SectionHeader.size) r

def build (s : Sample) : Bytes :=
  addSections (writeAll (Bytes.zeros dataStart) s.headerFields) s.sectionTableOffset s.allSections

/-- A machine that this boot client does not run on. -/
def foreignMachine : Machine := if Machine.native = .arm64 then .amd64 else .arm64

end Sample

end NetBoot.Image
