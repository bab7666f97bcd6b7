/-
  NetBoot.Image.Fat — fat containers: several images in one file, one for each CPU type.

  A container starts with a magic number and a count of entries; each entry gives a CPU type and
  where its image lies. `select` picks the first entry of the machine's CPU type; a file without
  the magic number is an image by itself. `encode` writes a container.
-/

import NetBoot.Check
import NetBoot.Log
import NetBoot.Image.Machine
import NetBoot.Image.Error

namespace NetBoot.Image.Fat

def magic : UInt32 := 0x0ef1fab9

def headerSize : Nat := 8

def entrySize : Nat := 20

structure Header where
  magic : UInt32
  count : UInt32
  deriving DecidableEq, Repr

def Header.at? (b : Bytes) (pos : Nat) : Option Header := do
  return ⟨← b.u32At? pos, ← b.u32At? (pos + 4)⟩

structure Entry where
  cpuType : UInt32
  cpuSubtype : UInt32
  offset : UInt32
  size : UInt32
  align : UInt32
  deriving DecidableEq, Repr

def Entry.at? (b : Bytes) (pos : Nat) : Option Entry := do
  return ⟨← b.u32At? pos, ← b.u32At? (pos + 4), ← b.u32At? (pos + 8), ← b.u32At? (pos + 12),
    ← b.u32At? (pos + 16)⟩

def Entry.encode (e : Entry) : Bytes :=
  Bytes.ofU32 e.cpuType ++ Bytes.ofU32 e.cpuSubtype ++ Bytes.ofU32 e.offset ++ Bytes.ofU32 e.size ++
    Bytes.ofU32 e.align

/-- The entries that the file really holds, at most as many as it announces. -/
def entries (raw : Bytes) (count : Nat) : List Entry :=
  (List.range (min count ((raw.size - headerSize) / entrySize))).filterMap fun i =>
    Entry.at? raw (headerSize + entrySize * i)

/-- The image to load: the file itself, or a part of it. -/
inductive Selection where
  | whole
  | part (start size : Nat)
  deriving DecidableEq, Repr

def Selection.apply (s : Selection) (raw : Bytes) : Bytes :=
  match s with
  | whole => raw
  | part start size => raw.extract start (start + size)

/-- The part that an entry points at, if the file holds all of it. -/
def Entry.part (e : Entry) (raw : Bytes) : Except LoadError Selection := do
  let stop := e.offset.toNat + e.size.toNat
  need (stop < UInt32.size ∧ stop ≤ raw.size) .truncatedImage
  return .part e.offset.toNat e.size.toNat

def select (raw : Bytes) (machine : Machine) : Except LoadError Selection :=
  match Header.at? raw 0 with
  | none => .ok .whole
  | some header =>
    if header.magic ≠ magic then .ok .whole
    else do
      let cpuType ← demand machine.cpuType? .noCompatibleArch
      let entry ← demand ((entries raw header.count.toNat).find? (·.cpuType == cpuType)) .noCompatibleArch
      entry.part raw

/-! ## Diagnostics -/

private def fatTarget : String := "netchain_peimage::fat"

/-- What is noted about a selection. -/
def notes (machine : Machine) : Except LoadError Selection → List Log.Record
  | .ok (.part start size) =>
    [⟨.debug, fatTarget,
      s!"fat binary: {machine.name} image at " ++ Text.hex0x start ++ ", " ++ Text.hex0x size ++ " bytes"⟩]
  | .error .noCompatibleArch =>
    if machine.cpuType?.isSome then [⟨.debug, fatTarget, s!"fat binary has no {machine.name} image"⟩] else []
  | _ => []

/-! ## Writing a container -/

/-- Where the images start in a container of `count` of them. -/
def bodyStart (count : Nat) : Nat := headerSize + entrySize * count

/-- The entries of images that lie one behind the other from `offset` on. -/
def entriesFrom (offset : Nat) : List (UInt32 × Bytes) → List Entry
  | [] => []
  | (cpuType, image) :: r =>
    ⟨cpuType, 0, UInt32.ofNat offset, UInt32.ofNat image.size, 0⟩ :: entriesFrom (offset + image.size) r

/-- The container of the images, in their order. -/
def encode (parts : List (UInt32 × Bytes)) : Bytes :=
  Bytes.ofU32 magic ++ Bytes.ofU32 (UInt32.ofNat parts.length) ++
    (entriesFrom (bodyStart parts.length) parts).foldr (fun e r => e.encode ++ r) #[] ++
    parts.foldr (fun p r => p.2 ++ r) #[]

end NetBoot.Image.Fat
