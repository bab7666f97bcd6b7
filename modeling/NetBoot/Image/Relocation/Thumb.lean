/-
  NetBoot.Image.Relocation.Thumb — the Thumb-2 pair MOVW, MOVT, whose immediates are the halves
  of an address.

  An immediate is spread over four fields of the two halfwords of an instruction: imm4 and i in
  the first, imm3 and imm8 in the second.
-/

import NetBoot.Bytes
import NetBoot.Image.Relocation.Field

namespace NetBoot.Image.Relocation.Thumb

/-- The two halfwords of an instruction. -/
structure Instruction where
  first : UInt16
  second : UInt16
  deriving DecidableEq, Repr

namespace Instruction

def immediate (i : Instruction) : Nat :=
  field i.second.toNat 0 8 + (field i.second.toNat 12 3 <<< 8) + (field i.first.toNat 10 1 <<< 11) +
    (field i.first.toNat 0 4 <<< 12)

def setImmediate (i : Instruction) (v : Nat) : Instruction where
  first := UInt16.ofNat (setField (setField i.first.toNat 0 4 (v >>> 12)) 10 1 (v >>> 11))
  second := UInt16.ofNat (setField (setField i.second.toNat 0 8 v) 12 3 (v >>> 8))

end Instruction

/-- MOVW, which gives the low half of an address, and MOVT, which gives the high half. -/
structure MovPair where
  low : Instruction
  high : Instruction
  deriving DecidableEq, Repr

namespace MovPair

def size : Nat := 8

def at? (b : Bytes) (pos : Nat) : Option MovPair := do
  return ⟨⟨← b.u16At? pos, ← b.u16At? (pos + 2)⟩, ⟨← b.u16At? (pos + 4), ← b.u16At? (pos + 6)⟩⟩

def encode (p : MovPair) : Bytes :=
  Bytes.ofU16 p.low.first ++ Bytes.ofU16 p.low.second ++ Bytes.ofU16 p.high.first ++ Bytes.ofU16 p.high.second

/-- The address the pair loads. -/
def value (p : MovPair) : UInt32 := UInt32.ofNat ((p.high.immediate <<< 16) + p.low.immediate)

/-- The pair that loads an address `delta` further on. -/
def relocate (p : MovPair) (delta : UInt32) : MovPair :=
  let v := p.value + delta
  ⟨p.low.setImmediate v.toNat, p.high.setImmediate (v.toNat >>> 16)⟩

end MovPair

end NetBoot.Image.Relocation.Thumb
