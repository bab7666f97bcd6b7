/-
  NetBoot.Image.Relocation.RiscV — the RISC-V pair of an upper immediate and a low 12-bit one,
  which together give an address.

  The low part is signed, so the upper one is rounded: it carries into bit 12 when the low part
  is negative. The low immediate is in one piece in an I-type instruction and in two in an
  S-type one.
-/

import NetBoot.Image.Relocation.Field

namespace NetBoot.Image.Relocation.RiscV

/-- The upper immediate, in place. -/
def high (instr : UInt32) : UInt32 := UInt32.ofNat (field instr.toNat 12 20 <<< 12)

def setHigh (instr v : UInt32) : UInt32 := UInt32.ofNat (setField instr.toNat 12 20 (v.toNat >>> 12))

/-- Where an instruction keeps its low immediate. -/
inductive LowForm where
  | iType
  | sType
  deriving DecidableEq, Repr

namespace LowForm

/-- The 12 bits of the low immediate. -/
def low (f : LowForm) (instr : UInt32) : UInt32 :=
  match f with
  | iType => UInt32.ofNat (field instr.toNat 20 12)
  | sType => UInt32.ofNat ((field instr.toNat 25 7 <<< 5) + field instr.toNat 7 5)

def setLow (f : LowForm) (instr v : UInt32) : UInt32 :=
  match f with
  | iType => UInt32.ofNat (setField instr.toNat 20 12 v.toNat)
  | sType => UInt32.ofNat (setField (setField instr.toNat 25 7 (v.toNat >>> 5)) 7 5 v.toNat)

end LowForm

/-- The low 12 bits as a signed number, in 32 bits. -/
def signExtend (v : UInt32) : UInt32 :=
  let n := v.toNat % 0x1000
  if n < 0x800 then UInt32.ofNat n else UInt32.ofNat (0xfffff000 + n)

/-- The address the pair gives. -/
def value (f : LowForm) (hi lo : UInt32) : UInt32 := high hi + signExtend (f.low lo)

/-- The pair that gives an address `delta` further on. -/
def relocatePair (f : LowForm) (hi lo delta : UInt32) : UInt32 × UInt32 :=
  let v := value f hi lo + delta
  (setHigh hi (v + 0x800), f.setLow lo v)

end NetBoot.Image.Relocation.RiscV
