/-
  NetBoot.Image.Relocation.Table — the base relocation table of an image, walked and applied.

  The table is a chain of blocks. A block has a page address, its own length, and 16-bit entries:
  a kind in the high 4 bits and an offset within the page in the low 12. `Fixup.ofKind?` says what
  a kind means to a family of machines, `step` what one entry writes, and `apply` walks the whole
  table. The table lies in the image that it patches and is read as it is walked, so a fixup may
  change entries that follow it. The image is returned whatever happens: an entry that fails
  writes nothing, and those before it stay applied.
-/

import NetBoot.Log
import NetBoot.Image.Machine
import NetBoot.Image.Error
import NetBoot.Image.Header
import NetBoot.Image.Relocation.Thumb
import NetBoot.Image.Relocation.RiscV

namespace NetBoot.Image.Relocation

/-- Why a table could not be applied to its end. -/
inductive Fault where
  /-- A block, or the site of a fixup, outside the image or its table. -/
  | outOfBounds (offset : UInt32)
  | unsupported (kind : UInt8) (offset : UInt32)
  | blockTooSmall (block size : Nat)
  /-- An upper immediate without the low one that belongs behind it. -/
  | highUnfollowed (offset : UInt32)
  | lowWithoutHigh (offset : UInt32)
  | highUnpaired (block : Nat)
  /-- The table is not where it was when its bounds were checked. -/
  | lost (offset : Nat)
  deriving DecidableEq, Repr

namespace Fault

def error : Fault → LoadError
  | outOfBounds offset => .relocationOutOfBounds offset
  | unsupported kind offset => .unsupportedRelocationType kind offset
  | blockTooSmall .. | highUnfollowed _ | lowWithoutHigh _ | highUnpaired _ | lost _ => .badRelocation

private def faultTarget : String := "netchain_peimage::relocate"

/-- What is noted about the fault. -/
def notes : Fault → List Log.Record
  | blockTooSmall block size =>
    [⟨.debug, faultTarget, "relocation block at " ++ Text.hex0x block ++ s!" declares size {size}"⟩]
  | highUnfollowed offset =>
    [⟨.debug, faultTarget,
      "RISC-V HI20 at " ++ Text.hex0x offset.toNat ++ " not followed by a LOW12 fixup"⟩]
  | lowWithoutHigh offset =>
    [⟨.debug, faultTarget, "RISC-V LOW12 at " ++ Text.hex0x offset.toNat ++ " without HI20"⟩]
  | highUnpaired block =>
    [⟨.debug, faultTarget, "RISC-V HI20 left unpaired at end of block " ++ Text.hex0x block⟩]
  | unsupported kind offset =>
    [⟨.warn, faultTarget, s!"unsupported relocation type {kind.toNat} at " ++ Text.hex0x offset.toNat⟩]
  | outOfBounds _ | lost _ => []

end Fault

/-! ## Entries -/

structure Entry where
  kind : UInt8
  /-- Offset within the page, below 4096. -/
  offset : UInt16
  deriving DecidableEq, Repr

namespace Entry

def ofWord (w : UInt16) : Entry := ⟨(w >>> 12).toUInt8, w &&& 0x0FFF⟩

def toWord (e : Entry) : UInt16 := (e.kind.toUInt16 <<< 12) ||| (e.offset &&& 0x0FFF)

def absolute : UInt8 := 0
def high : UInt8 := 1
def low : UInt8 := 2
def highLow : UInt8 := 3
def riscvHigh20 : UInt8 := 5
def thumbMov32 : UInt8 := 7
def riscvLow12I : UInt8 := 7
def riscvLow12S : UInt8 := 8
def dir64 : UInt8 := 10

end Entry

/-- What a kind of entry does at its site. -/
inductive Fixup where
  /-- Fills a block up. -/
  | nothing
  /-- Adds the delta, less its low `shift` bits, to a field of `width` bytes. -/
  | add (width shift : Nat)
  | thumbMov
  /-- The upper immediate of a pair, which waits for the low one. -/
  | riscvHigh
  | riscvLow (form : RiscV.LowForm)
  deriving DecidableEq, Repr

namespace Fixup

def ofKind? (family : FixupFamily) (kind : UInt8) : Option Fixup :=
  if kind = Entry.absolute then some .nothing
  else if kind = Entry.high then some (.add 2 16)
  else if kind = Entry.low then some (.add 2 0)
  else if kind = Entry.highLow then some (.add 4 0)
  else if kind = Entry.dir64 then some (.add 8 0)
  else match family with
    | .generic => none
    | .thumb => if kind = Entry.thumbMov32 then some .thumbMov else none
    | .riscv =>
      if kind = Entry.riscvHigh20 then some .riscvHigh
      else if kind = Entry.riscvLow12I then some (.riscvLow .iType)
      else if kind = Entry.riscvLow12S then some (.riscvLow .sType)
      else none

def isRiscvLow : Fixup → Bool
  | riscvLow _ => true
  | _ => false

end Fixup

/-- Bytes to write, and where. -/
structure Patch where
  site : Nat
  bytes : Bytes
  deriving DecidableEq, Repr

def Patch.applyAll (image : Bytes) (ps : List Patch) : Bytes :=
  ps.foldl (fun image p => image.overwrite p.site p.bytes) image

/-- The number in `width` bytes at a site. -/
def fieldAt (image : Bytes) (site width : Nat) : Except Fault Nat :=
  match image.fieldAt? site width with
  | some v => .ok v
  | none => .error (.outOfBounds (UInt32.ofNat site))

/-- What a fixup at `site` writes, and the site of the upper immediate that then waits. -/
def Fixup.patches (fixup : Fixup) (image : Bytes) (delta : UInt64) (entryAt : UInt32) (site : Nat)
    (pending : Option Nat) : Except Fault (List Patch × Option Nat) :=
  match fixup with
  | nothing => .ok ([], pending)
  | add width shift => do
    let v ← fieldAt image site width
    return ([⟨site, (leBytes width (v + (delta.toNat >>> shift))).toArray⟩], pending)
  | thumbMov =>
    match Thumb.MovPair.at? image site with
    | some p => .ok ([⟨site, (p.relocate delta.toUInt32).encode⟩], pending)
    | none => .error (.outOfBounds (UInt32.ofNat site))
  | riscvHigh => do
    let _ ← fieldAt image site 4
    return ([], some site)
  | riscvLow form =>
    match pending with
    | none => .error (.lowWithoutHigh entryAt)
    | some highSite => do
      let hi ← fieldAt image highSite 4
      let lo ← fieldAt image site 4
      let (hi', lo') := RiscV.relocatePair form (UInt32.ofNat hi) (UInt32.ofNat lo) delta.toUInt32
      return ([⟨highSite, Bytes.ofU32 hi'⟩, ⟨site, Bytes.ofU32 lo'⟩], none)

/-- Where an entry of a page applies; `none` above 32 bits. -/
def siteOf? (page : UInt32) (offset : UInt16) : Option Nat :=
  let site := page.toNat + offset.toNat
  if site < UInt32.size then some site else none

/-- What an entry writes that stands at `pos`, in a block of page `page`. -/
def Entry.patches (entry : Entry) (image : Bytes) (family : FixupFamily) (delta : UInt64) (page : UInt32) (pos : Nat)
    (pending : Option Nat) : Except Fault (List Patch × Option Nat) :=
  let entryAt := UInt32.ofNat pos
  match siteOf? page entry.offset with
  | none => .error (.outOfBounds entryAt)
  | some site =>
    let fixup := Fixup.ofKind? family entry.kind
    if pending.isSome && !fixup.any Fixup.isRiscvLow then .error (.highUnfollowed entryAt)
    else match fixup with
      | none => .error (.unsupported entry.kind entryAt)
      | some fixup => fixup.patches image delta entryAt site pending

/-- What the entry at `pos` writes. -/
def step (image : Bytes) (family : FixupFamily) (delta : UInt64) (page : UInt32) (pos : Nat)
    (pending : Option Nat) : Except Fault (List Patch × Option Nat) :=
  match image.u16At? pos with
  | none => .error (.lost pos)
  | some word => (Entry.ofWord word).patches image family delta page pos pending

/-! ## Blocks and the table -/

def blockHeaderSize : Nat := 8

/-- Applies the entries from `pos` up to `stop`; an odd last byte is no entry. -/
def walkBlock (family : FixupFamily) (delta : UInt64) (page : UInt32) (image : Bytes) (pos stop : Nat)
    (pending : Option Nat) : Bytes × Except Fault (Option Nat) :=
  if pos + 2 ≤ stop then
    match step image family delta page pos pending with
    | .error f => (image, .error f)
    | .ok (patches, pending') =>
      walkBlock family delta page (Patch.applyAll image patches) (pos + 2) stop pending'
  else (image, .ok pending)
termination_by stop - pos

/-- Applies the blocks from `pos` up to `stop`. -/
def walkTable (family : FixupFamily) (delta : UInt64) (image : Bytes) (pos stop : Nat) :
    Bytes × Except Fault Unit :=
  if pos < stop then
    if stop - pos < blockHeaderSize then (image, .error (.outOfBounds (UInt32.ofNat pos)))
    else match image.u32At? pos, image.u32At? (pos + 4) with
      | some page, some size =>
        if size.toNat < blockHeaderSize then (image, .error (.blockTooSmall pos size.toNat))
        else if stop < pos + size.toNat then (image, .error (.outOfBounds (UInt32.ofNat pos)))
        else match walkBlock family delta page image (pos + blockHeaderSize) (pos + size.toNat) none with
          | (image', .error f) => (image', .error f)
          | (image', .ok (some _)) => (image', .error (.highUnpaired pos))
          | (image', .ok none) => walkTable family delta image' (pos + size.toNat) stop
      | _, _ => (image, .error (.lost pos))
  else (image, .ok ())
termination_by stop - pos
decreasing_by
  rename_i h _ _ _
  simp only [blockHeaderSize] at *
  omega

/-- Applies the whole table for an image that lies `delta` above its preferred base. -/
def apply (image : Bytes) (table : DataDirectory) (delta : UInt64) (family : FixupFamily) :
    Bytes × Except Fault Unit :=
  let start := table.rva.toNat
  if table.size = 0 then (image, .ok ())
  else if image.size < start + table.size.toNat then (image, .error (.outOfBounds table.rva))
  else walkTable family delta image start (start + table.size.toNat)

end NetBoot.Image.Relocation
