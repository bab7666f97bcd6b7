/-
  NetBoot.Uefi.Pool — memory of any alignment from a pool whose blocks are aligned to eight bytes.

  A block for a larger alignment is asked for with room to spare. The part handed out starts at
  the first multiple of the alignment above the block's start, so at least one word lies between
  the two, and the word just below that part keeps the block's address for the day
  it is given back.
-/

import NetBoot.Address

namespace NetBoot.Uefi

/-- What is asked for: so many bytes at a multiple of a power of two. -/
structure Layout where
  size : UInt64
  align : UInt64
  deriving DecidableEq, Repr

/-- A pool, and the memory its blocks lie in. -/
structure Pool (m : Type → Type) where
  /-- A block of so many bytes; `none` when the pool has none. -/
  allocate : UInt64 → m (Option Address)
  free : Address → m Unit
  readWord : Address → m UInt64
  writeWord : Address → UInt64 → m Unit

namespace Pool

/-- The alignment that every block has. -/
def blockAlign : UInt64 := 8

/-- The bytes of the word that keeps the block's address. -/
def wordSize : UInt64 := 8

/-- Bytes between a block and the part of it that is handed out. -/
def offset (block : Address) (align : UInt64) : UInt64 := align - (block &&& (align - 1))

/-- Does the pool's own alignment do? -/
def isPlain (l : Layout) : Bool := l.align ≤ blockAlign

/-- The bytes to ask the pool for; `none` when there is no such number. -/
def request? (l : Layout) : Option UInt64 :=
  if isPlain l then some l.size
  else if l.size.toNat + l.align.toNat < UInt64.size then some (l.size + l.align) else none

variable {m : Type → Type} [Monad m]

/-- Memory for a layout; `none` when there is none, as there is while no pool is at hand. -/
def alloc (pool : Option (Pool m)) (l : Layout) : m (Option Address) := do
  match pool, request? l with
  | some p, some size =>
    match ← p.allocate size with
    | none => return none
    | some block =>
      if isPlain l then return some block
      else
        let start := block + offset block l.align
        p.writeWord (start - wordSize) block
        return some start
  | _, _ => return none

/-- Gives back what `alloc` handed out for the same layout. -/
def dealloc (pool : Option (Pool m)) (start : Address) (l : Layout) : m Unit := do
  match pool with
  | none => pure ()
  | some p => if isPlain l then p.free start else p.free (← p.readWord (start - wordSize))

end Pool

end NetBoot.Uefi
