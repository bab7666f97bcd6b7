/-
  NetBoot.Uefi.Records — the firmware's records of loaded images, read and replaced.

  A record holds pointers. When a record is replaced, its path and its load options become copies
  of this program's own, which live until the same record is replaced again; the pointers are
  moved before the older copies go, so a record never points at a copy that is gone.
-/

import NetBoot.Uefi.Services

namespace NetBoot.Uefi.Records

/-- The copy with a number. -/
def copy (number : Nat) : Uefi RecordCopy := do
  match (← get).copies.pairs.find? (·.2.number == number) with
  | some (_, c) => return c
  | none => throw (.dangling number)

/-- What a path pointer leads to. -/
def pathAt : Pointer Bytes → Uefi (Option Bytes)
  | .null => return none
  | .firmware memory => return some memory
  | .copy number => return some (← copy number).path

/-- What an options pointer leads to. -/
def optionsAt : Pointer (List UInt16) → Uefi (Option (List UInt16))
  | .null => return none
  | .firmware units => return some units
  | .copy number => return some (← copy number).options

/-- The record on a handle as the firmware keeps it. -/
def raw (handle : Handle) : Uefi (Except ServiceError RawImage) := do
  match ← Services.handleProtocol .loadedImage handle with
  | .error status => return .error (.ofStatus status)
  | .ok () => return .ok (((← get).images.find? handle).getD {})

/-- The options in a record: as many whole units as its size tells. -/
def optionsOf (r : RawImage) : Uefi (List UInt16) := do
  match ← optionsAt r.options with
  | none => return []
  | some units => return units.take (r.optionsSize.toNat / 2)

def loadedImage (handle : Handle) : Uefi (Except ServiceError LoadedImage) := do
  match ← raw handle with
  | .error e => return .error e
  | .ok r => do
    let options ← optionsOf r
    let path := (← pathAt r.path).bind DevicePath.readFrom?
    return .ok { parent := r.parent, device := r.device, path, options, base := r.base, size := r.size }

/-- The record with pointers to the copy with a number; what is empty has none. -/
def rawOf (record : LoadedImage) (number : Nat) (path : Bytes) : RawImage where
  parent := record.parent
  device := record.device
  path := if path.isEmpty then .null else .copy number
  optionsSize := UInt32.ofNat (2 * record.options.length)
  options := if record.options.isEmpty then .null else .copy number
  base := record.base
  size := record.size

def setLoadedImage (handle : Handle) (record : LoadedImage) : Uefi (Except ServiceError Unit) := do
  match ← raw handle with
  | .error e => return .error e
  | .ok _ =>
    if UInt32.size ≤ 2 * record.options.length then return .error .invalidParameter
    else
      let w ← get
      let path := (record.path.map (·.bytes)).getD #[]
      set { w with
        images := w.images.insert handle (rawOf record w.nextCopy path)
        copies := w.copies.insert handle ⟨w.nextCopy, path, record.options⟩
        nextCopy := w.nextCopy + 1 }
      return .ok ()

end NetBoot.Uefi.Records
